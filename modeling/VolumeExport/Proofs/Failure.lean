import Mathlib.Data.List.Basic

namespace VolumeExport

variable {ε δ α β : Type} {P Q : ε → Prop} {r : Except ε α}

@[simp] theorem Except.ok_bind (a : α) (f : α → Except ε β) : (Except.ok a >>= f) = f a := rfl

@[simp] theorem Except.error_bind (e : ε) (f : α → Except ε β) :
    (Except.error e >>= f) = .error e := rfl

theorem eq_ok_of_bind {f : α → Except ε β} {b : β} (h : r >>= f = .ok b) :
    ∃ a, r = .ok a ∧ f a = .ok b := by
  cases r with
  | error e => cases h
  | ok a => exact ⟨a, rfl, h⟩

theorem eq_ok_of_mapError {f : ε → δ} {a : α} (h : r.mapError f = .ok a) : r = .ok a := by
  cases r with
  | error e => cases h
  | ok b =>
    cases h
    rfl

theorem exists_ok_of_check (r : Except ε α) (check : α → Bool)
    (h : (match r with
      | .ok a => check a
      | .error _ => false) = true) : ∃ a, r = .ok a ∧ check a := by
  cases r with
  | ok a => exact ⟨a, rfl, h⟩
  | error e => cases h

/-- What each step of a fold keeps holds of its result. -/
theorem foldlM_inv {as : List α} {f : β → α → Except ε β} {b b' : β} {I : β → Prop}
    (hstep : ∀ a ∈ as, ∀ b b', I b → f b a = .ok b' → I b') (hb : I b)
    (h : as.foldlM f b = .ok b') : I b' := by
  induction as generalizing b with
  | nil =>
    cases h
    exact hb
  | cons a as ih =>
    obtain ⟨ha, has⟩ := List.forall_mem_cons.1 hstep
    rw [List.foldlM_cons] at h
    obtain ⟨c, hc, h⟩ := eq_ok_of_bind h
    exact ih has (ha b c hb hc) h

/-- A computation fails in certain ways only. -/
def FailsAs (P : ε → Prop) (r : Except ε α) : Prop := ∀ e, r = .error e → P e

theorem failsAs_ok (a : α) : FailsAs P (.ok a) := nofun

theorem failsAs_error {e : ε} (h : P e) : FailsAs P (.error e : Except ε α) := by
  rintro _ ⟨⟩
  exact h

theorem FailsAs.mono (h : FailsAs P r) (hPQ : ∀ e, P e → Q e) : FailsAs Q r :=
  fun e he => hPQ e (h e he)

theorem FailsAs.bind {f : α → Except ε β} (h : FailsAs P r)
    (hf : ∀ a, r = .ok a → FailsAs P (f a)) : FailsAs P (r >>= f) := by
  cases r with
  | error e => exact failsAs_error (h e rfl)
  | ok a => exact hf a rfl

theorem FailsAs.mapError {P : δ → Prop} {f : ε → δ} (h : FailsAs Q r) (hf : ∀ e, Q e → P (f e)) :
    FailsAs P (r.mapError f) := by
  cases r with
  | error e => exact failsAs_error (hf e (h e rfl))
  | ok a => exact failsAs_ok a

theorem failsAs_mapM {as : List α} {f : α → Except ε β} (h : ∀ a ∈ as, FailsAs P (f a)) :
    FailsAs P (as.mapM f) := by
  induction as with
  | nil => exact failsAs_ok []
  | cons a as ih =>
    obtain ⟨ha, has⟩ := List.forall_mem_cons.1 h
    rw [List.mapM_cons]
    exact ha.bind fun b _ => (ih has).bind fun bs _ => failsAs_ok (b :: bs)

theorem failsAs_foldlM {as : List α} {f : β → α → Except ε β} {b : β}
    (h : ∀ b, ∀ a ∈ as, FailsAs P (f b a)) : FailsAs P (as.foldlM f b) := by
  induction as generalizing b with
  | nil => exact failsAs_ok b
  | cons a as ih =>
    rw [List.foldlM_cons]
    exact (h b a List.mem_cons_self).bind fun b' _ =>
      ih fun b a ha => h b a (List.mem_cons_of_mem _ ha)

end VolumeExport
