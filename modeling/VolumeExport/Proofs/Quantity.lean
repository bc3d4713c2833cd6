import VolumeExport.Proofs.Binary64
import VolumeExport.Quantity

namespace VolumeExport

namespace Quantity

open Numeral Significant

variable {negative : Bool} {whole fraction pointed ending cs : List Char} {power : Int}

theorem valueOf_lt (h : ∀ c ∈ cs, c.isDigit) : valueOf cs < 10 ^ cs.length := by
  have hvalue : valueOf cs = ofDigits 10 (cs.map digitOf) := by
    rw [valueOf, ofDigits, List.foldl_map]
    rfl
  rw [hvalue]
  exact ofDigits_lt (List.forall_mem_map.2 fun c hc => digitOf_lt (h c hc)) (by decide)
    (List.length_map digitOf).le

/-- A number has no more digits than it is written with. -/
theorem digitCount_valueOf_le (h : ∀ c ∈ cs, c.isDigit) (hne : cs ≠ []) :
    digitCount (valueOf cs) ≤ cs.length := by
  exact (Nat.length_toDigits_le_iff (by decide) (List.length_pos_iff.2 hne)).2 (valueOf_lt h)

/-- Digits, then digits behind a point if there is one, then a power of ten. -/
theorem isSome_finite? (hwhole : ∀ c ∈ whole, c.isDigit) (hne : whole ≠ [])
    (hfraction : ∀ c ∈ fraction, c.isDigit)
    (hpointed : pointed = '.' :: fraction ∨ (pointed = [] ∧ fraction = []))
    (hending : ∀ c ∈ ending.head?, c.isDigit = false ∧ c ≠ '.')
    (hpower : exponent? ending = some power) (hlength : whole.length + fraction.length ≤ 10 ^ 6)
    (hsmall : power.natAbs ≤ 10 ^ 6) :
    (finite? negative (whole ++ (pointed ++ ending))).isSome := by
  have hstop {p : List Char} (h : ∀ c ∈ p.head?, c.isDigit = false) :
      p.takeWhile Char.isDigit = [] ∧ p.dropWhile Char.isDigit = p := by
    cases p with
    | nil => exact ⟨rfl, rfl⟩
    | cons c p => simp [h c rfl]
  have hrest : ∀ c ∈ (pointed ++ ending).head?, c.isDigit = false := by
    rcases hpointed with rfl | ⟨rfl, -⟩
    · rintro c ⟨⟩
      rfl
    · exact fun c hc => (hending c hc).1
  have htake : (whole ++ (pointed ++ ending)).takeWhile Char.isDigit = whole := by
    rw [List.takeWhile_append_of_pos hwhole, (hstop hrest).1, List.append_nil]
  have hdrop : (whole ++ (pointed ++ ending)).dropWhile Char.isDigit = pointed ++ ending := by
    rw [List.dropWhile_append_of_pos hwhole, (hstop hrest).2]
  have hnonempty : whole ++ fraction ≠ [] := List.append_ne_nil_of_left_ne_nil hne fraction
  have hdigits : ∀ c ∈ whole ++ fraction, c.isDigit := fun c hc =>
    (List.mem_append.1 hc).elim (hwhole c) (hfraction c)
  have hcount := digitCount_valueOf_le hdigits hnonempty
  rw [List.length_append] at hcount
  have hbounds : minWritten ≤ power - fraction.length ∧
      (if valueOf (whole ++ fraction) = 0 then power - fraction.length
        else leadingPower (valueOf (whole ++ fraction)) (power - fraction.length)) ≤
          maxWritten := by
    rw [minWritten, maxWritten, leadingPower]
    split <;> omega
  rw [finite?, htake, hdrop]
  -- A point is the only thing that the digits behind it follow.
  split
  next heq =>
    split at heq
    · next cs hcs =>
      rcases hpointed with rfl | ⟨rfl, rfl⟩
      · obtain rfl : fraction ++ ending = cs := (List.cons.inj hcs).2
        have hend := hstop fun c hc => (hending c hc).1
        rw [List.takeWhile_append_of_pos hfraction, hend.1, List.append_nil,
          List.dropWhile_append_of_pos hfraction, hend.2] at heq
        cases heq
        simp [hnonempty, hpower, hbounds]
      · rw [List.nil_append] at hcs
        exact absurd rfl (hending '.' (by rw [hcs]; rfl)).2
    · next hno =>
      rcases hpointed with rfl | ⟨rfl, rfl⟩
      · exact absurd rfl (hno _)
      · cases heq
        rw [List.append_nil] at hnonempty hbounds
        simpa [hnonempty, hpower] using hbounds

theorem plainChars?_eq_self (h : ∀ c ∈ cs, c.toNat < 0x80 ∧ c ≠ '_') :
    plainChars? cs = some cs := by
  induction cs with
  | nil => rfl
  | cons c cs ih =>
    obtain ⟨⟨hc, hmark⟩, hcs⟩ := List.forall_mem_cons.1 h
    simp [plainChars?, hc, ih hcs]

theorem letterPower?_of_isDigit {c : Char} (h : c.isDigit) : letterPower? c = none := by
  have hne (d : Char) (hd : d.isDigit = false) : c ≠ d := ne_of_isDigit h hd
  unfold letterPower?
  split <;> first | rfl | exact absurd rfl (hne _ (by decide))

theorem split_of_isDigit {c : Char} (h : c.isDigit) :
    split (cs ++ [c]) = (.none, cs ++ [c]) := by
  have hletter := letterPower?_of_isDigit h
  rw [split, List.reverse_append, List.reverse_singleton, List.singleton_append]
  split
  · next heq =>
    obtain rfl := (List.cons.inj heq).1
    cases h
  · next heq =>
    obtain rfl := (List.cons.inj heq).1
    rw [hletter]
  · rfl

theorem toList_toString_int (n : Int) :
    (toString n).toList = Binary64.minus (n < 0) ++ Nat.toDigits 10 n.natAbs := by
  cases n with
  | ofNat n => exact toList_toString n
  | negSucc n =>
    rw [toList_toString_negSucc, decide_eq_true (Int.negSucc_lt_zero n)]
    rfl

section

variable {c d : Char}

theorem trim_minus (hc : c.isDigit) (hd : d.isDigit) (hlast : (c :: cs).getLast? = some d) :
    Text.trim (Binary64.minus negative ++ c :: cs) = Binary64.minus negative ++ c :: cs := by
  apply Text.trim_eq_self
  constructor
  · cases negative with
    | true =>
      rintro _ ⟨⟩
      rfl
    | false =>
      rintro _ ⟨⟩
      exact isBlank_of_isDigit hc
  · rw [List.getLast?_append, hlast]
    rintro _ ⟨⟩
    exact isBlank_of_isDigit hd

theorem plainChars?_minus (hplain : ∀ c ∈ cs, c.toNat < 0x80 ∧ c ≠ '_') :
    plainChars? (Binary64.minus negative ++ cs) = some (Binary64.minus negative ++ cs) := by
  apply plainChars?_eq_self
  cases negative with
  | true => exact List.forall_mem_cons.2 ⟨by decide, hplain⟩
  | false => exact hplain

theorem sign_minus (hc : c.isDigit) :
    sign (Binary64.minus negative ++ c :: cs) = (negative, c :: cs) := by
  cases negative with
  | true => rfl
  | false =>
    change sign (c :: cs) = _
    rw [sign]
    · rintro _ ⟨⟩
      cases hc
    · rintro _ ⟨⟩
      cases hc

theorem not_prefix_of_isDigit {word : List Char} (hc : c.isDigit) (hd : d.isDigit = false) :
    ¬d :: word <+: (c :: cs).map Char.toLower := by
  rw [List.map_cons, toLower_of_isDigit hc, List.cons_prefix_cons]
  rintro ⟨rfl, -⟩
  cases hc.symm.trans hd

theorem number?_minus (hc : c.isDigit) (hd : d.isDigit) (hlast : (c :: cs).getLast? = some d)
    (hplain : ∀ e ∈ c :: cs, e.toNat < 0x80 ∧ e ≠ '_') :
    number? (Binary64.minus negative ++ c :: cs) = finite? negative (c :: cs) := by
  rw [number?, trim_minus hc hd hlast, plainChars?_minus hplain, Option.bind_eq_bind,
    Option.bind_some, sign_minus hc]
  dsimp only
  rw [if_neg, if_neg, if_neg]
  · rw [List.isPrefixOf_iff_prefix]
    exact fun hprefix => not_prefix_of_isDigit hc rfl hprefix.1
  · rw [List.isPrefixOf_iff_prefix]
    exact fun hprefix => not_prefix_of_isDigit hc rfl hprefix.1
  · rintro (heq | heq)
    · have hprefix : "inf".toList <+: (c :: cs).map Char.toLower := heq ▸ List.prefix_rfl
      exact not_prefix_of_isDigit hc rfl hprefix
    · have hprefix : "infinity".toList <+: (c :: cs).map Char.toLower := heq ▸ List.prefix_rfl
      exact not_prefix_of_isDigit hc rfl hprefix

theorem isSome_ofChars? (hc : c.isDigit) (hd : d.isDigit) (hhead : cs.head? = some c)
    (hlast : cs.getLast? = some d) (hplain : ∀ c ∈ cs, c.toNat < 0x80 ∧ c ≠ '_')
    (hfinite : ∀ negative, (finite? negative cs).isSome) (negative : Bool) :
    (ofChars? (Binary64.minus negative ++ cs)).isSome := by
  have hsplit : split (Binary64.minus negative ++ cs) = (.none, Binary64.minus negative ++ cs) := by
    obtain ⟨before, rfl⟩ := List.getLast?_eq_some_iff.1 hlast
    rw [← List.append_assoc]
    exact split_of_isDigit hd
  obtain ⟨more, rfl⟩ := List.head?_eq_some_iff.1 hhead
  obtain ⟨q, hq⟩ := Option.isSome_iff_exists.1 (hfinite negative)
  rw [ofChars?, hsplit]
  dsimp only
  rw [number?_minus hc hd hlast hplain, hq]
  rfl

end

theorem head?_isDigit (h : ∀ c ∈ cs, c.isDigit) (hne : cs ≠ []) :
    ∃ c, c.isDigit ∧ cs.head? = some c := by
  obtain ⟨c, cs, rfl⟩ := List.exists_cons_of_ne_nil hne
  exact ⟨c, h c List.mem_cons_self, rfl⟩

theorem getLast?_isDigit (h : ∀ c ∈ cs, c.isDigit) (hne : cs ≠ []) :
    ∃ c, c.isDigit ∧ cs.getLast? = some c :=
  ⟨cs.getLast hne, h _ (List.getLast_mem hne), List.getLast?_eq_some_getLast hne⟩

theorem plain_of_isDigit {c : Char} (h : c.isDigit) : c.toNat < 0x80 ∧ c ≠ '_' :=
  ⟨Nat.lt_of_le_of_lt (toNat_of_isDigit h).2 (by decide), ne_of_isDigit h (by decide)⟩

/-- The text of a whole number, if it can be written, is a quantity. -/
theorem isSome_of_write {n : Int} {text : String} (h : write n = .ok text) :
    (ofText? text).isSome := by
  rw [write] at h
  split at h
  · next hsmall =>
    cases h
    have hdigits : ∀ c ∈ Nat.toDigits 10 n.natAbs, c.isDigit := fun _ => isDigit_of_mem
    have hlength : (Nat.toDigits 10 n.natAbs).length ≤ maxDigits := by
      rw [← toList_toString, String.length_toList, length_toString_le_iff (by decide)]
      exact hsmall
    have hne : Nat.toDigits 10 n.natAbs ≠ [] := Nat.toDigits_ne_nil
    obtain ⟨c, hc, hhead⟩ := head?_isDigit hdigits hne
    obtain ⟨d, hd, hlast⟩ := getLast?_isDigit hdigits hne
    have hfinite (negative : Bool) : (finite? negative (Nat.toDigits 10 n.natAbs)).isSome := by
      have hparts : (finite? negative (Nat.toDigits 10 n.natAbs ++ ([] ++ []))).isSome :=
        isSome_finite? hdigits hne (List.forall_mem_nil _) (.inr ⟨rfl, rfl⟩) (by rintro _ ⟨⟩) rfl
          (hlength.trans (by decide)) (by decide)
      rwa [List.append_nil, List.append_nil] at hparts
    rw [ofText?, toList_toString_int]
    exact isSome_ofChars? hc hd hhead hlast (fun c hc => plain_of_isDigit (hdigits c hc)) hfinite _
  · cases h

inductive IsFraction : List Char → List Char → Prop
  | none : IsFraction [] []
  | some {ds} : (∀ c ∈ ds, c.isDigit) → ds ≠ [] → IsFraction ('.' :: ds) ds

inductive IsPower : List Char → Prop
  | none : IsPower []
  | some {mark ds} : mark = '-' ∨ mark = '+' → (∀ c ∈ ds, c.isDigit) → ds ≠ [] → ds.length ≤ 6 →
      IsPower ('e' :: mark :: ds)

theorem IsPower.exponent (h : IsPower ending) :
    ∃ power, exponent? ending = .some power ∧ power.natAbs ≤ 10 ^ 6 := by
  cases h with
  | none => exact ⟨0, rfl, by decide⟩
  | @some mark ds hmark hdigits hne hlength =>
    have hsmall : valueOf ds ≤ 10 ^ 6 :=
      ((valueOf_lt hdigits).trans_le (Nat.pow_le_pow_right (by decide) hlength)).le
    have hall : ds.all Char.isDigit := List.all_eq_true.2 hdigits
    rcases hmark with rfl | rfl
    · exact ⟨-(valueOf ds : Int), by simp [exponent?, sign, hne, hall], by simpa using hsmall⟩
    · exact ⟨valueOf ds, by simp [exponent?, sign, hne, hall], by simpa using hsmall⟩

theorem isSome_of_parts (hwhole : ∀ c ∈ whole, c.isDigit) (hne : whole ≠ [])
    (hfraction : IsFraction pointed fraction) (hpower : IsPower ending)
    (hlength : whole.length + fraction.length ≤ 10 ^ 6) (negative : Bool) :
    (ofChars? (Binary64.minus negative ++ (whole ++ (pointed ++ ending)))).isSome := by
  obtain ⟨power, hexponent, hsmall⟩ := hpower.exponent
  obtain ⟨c, hc, hhead⟩ := head?_isDigit hwhole hne
  have hlast : ∃ d, d.isDigit ∧ (whole ++ (pointed ++ ending)).getLast? = some d := by
    rw [List.getLast?_append, List.getLast?_append]
    cases hpower with
    | some hmark hdigits hds _ =>
      obtain ⟨d, hd, hlast⟩ := getLast?_isDigit hdigits hds
      refine ⟨d, hd, ?_⟩
      rw [List.getLast?_cons_of_ne_nil (by simp), List.getLast?_cons_of_ne_nil hds, hlast]
      rfl
    | none =>
      cases hfraction with
      | some hdigits hds =>
        obtain ⟨d, hd, hlast⟩ := getLast?_isDigit hdigits hds
        refine ⟨d, hd, ?_⟩
        rw [List.getLast?_cons_of_ne_nil hds, hlast]
        rfl
      | none => exact getLast?_isDigit hwhole hne
  obtain ⟨d, hd, hlast⟩ := hlast
  have hplain : ∀ c ∈ whole ++ (pointed ++ ending), c.toNat < 0x80 ∧ c ≠ '_' := by
    simp only [List.forall_mem_append]
    refine ⟨fun c hc => plain_of_isDigit (hwhole c hc), ?_, ?_⟩
    · cases hfraction with
      | none => nofun
      | some hdigits _ =>
        rw [List.forall_mem_cons]
        exact ⟨by decide, fun c hc => plain_of_isDigit (hdigits c hc)⟩
    · cases hpower with
      | none => nofun
      | some hmark hdigits _ _ =>
        rw [List.forall_mem_cons, List.forall_mem_cons]
        refine ⟨by decide, ?_, fun c hc => plain_of_isDigit (hdigits c hc)⟩
        rcases hmark with rfl | rfl <;> decide
  have hfinite (negative : Bool) : (finite? negative (whole ++ (pointed ++ ending))).isSome := by
    have hdigits : ∀ c ∈ fraction, c.isDigit := by
      cases hfraction with
      | none => nofun
      | some hdigits _ => exact hdigits
    apply isSome_finite? hwhole hne hdigits ?_ ?_ hexponent hlength hsmall
    · cases hfraction with
      | none => exact .inr ⟨rfl, rfl⟩
      | some => exact .inl rfl
    · cases hpower with
      | none => nofun
      | some =>
        rintro _ ⟨⟩
        decide
  exact isSome_ofChars? hc hd (by rw [List.head?_append, hhead]; rfl) hlast hplain hfinite negative

theorem isPower_exponentText {n : Int} (h : n.natAbs < 10 ^ 6) :
    IsPower (Binary64.exponentText n) := by
  have hlength : (Nat.toDigits 10 n.natAbs).length ≤ 6 :=
    (Nat.length_toDigits_le_iff (by decide) (by decide)).2 h
  apply IsPower.some
  · split
    · exact .inl rfl
    · exact .inr rfl
  · intro c hc
    rcases List.mem_append.1 hc with hc | hc
    · rw [List.eq_of_mem_replicate hc]
      rfl
    · exact isDigit_of_mem hc
  · exact List.append_ne_nil_of_right_ne_nil _ Nat.toDigits_ne_nil
  · rw [List.length_append, List.length_replicate]
    omega

theorem isSome_of_small {p : Binary64.Positional} (h : p.Small) (negative : Bool) :
    (ofChars? (Binary64.minus negative ++ Binary64.plain.render p)).isSome := by
  obtain ⟨hne, hdigits, hlength, hpoint⟩ := h
  have hzeros {n : Nat} : ∀ c ∈ List.replicate n '0', c.isDigit := fun c hc => by
    rw [List.eq_of_mem_replicate hc]
    rfl
  rw [Binary64.Layout.render]
  split
  · have hpower : IsPower (Binary64.exponentText (p.point - 1)) := isPower_exponentText (by omega)
    obtain ⟨d, ds, hds⟩ := List.exists_cons_of_ne_nil hne
    rw [hds] at hdigits hlength ⊢
    obtain ⟨hd, hdigits⟩ := List.forall_mem_cons.1 hdigits
    have hwhole : ∀ c ∈ [d], c.isDigit := List.forall_mem_singleton.2 hd
    cases ds with
    | nil => exact isSome_of_parts hwhole (List.cons_ne_nil _ _) .none hpower (by simp) negative
    | cons d' ds =>
      exact isSome_of_parts hwhole (List.cons_ne_nil _ _)
        (.some hdigits (List.cons_ne_nil _ _)) hpower (by simp at hlength ⊢; omega) negative
  · next hnear =>
    split
    · have hfraction : ∀ c ∈ List.replicate (-p.point).toNat '0' ++ p.digits, c.isDigit :=
        fun c hc => (List.mem_append.1 hc).elim (hzeros c) (hdigits c)
      have hzero : ∀ c ∈ ['0'], c.isDigit := List.forall_mem_singleton.2 rfl
      have hparts := isSome_of_parts hzero (List.cons_ne_nil _ _)
        (.some hfraction (List.append_ne_nil_of_right_ne_nil _ hne)) .none
        (by simp; omega) negative
      rw [List.append_nil] at hparts
      exact hparts
    · next hpos =>
      have hk : p.point.toNat ≤ 16 := by
        simp only [Binary64.plain] at hnear
        omega
      have hwhole : ∀ c ∈ p.digits.take p.point.toNat ++
          List.replicate (p.point.toNat - p.digits.length) '0', c.isDigit := fun c hc =>
        (List.mem_append.1 hc).elim (fun hc => hdigits c (List.mem_of_mem_take hc)) (hzeros c)
      have hnonempty : p.digits.take p.point.toNat ++
          List.replicate (p.point.toNat - p.digits.length) '0' ≠ [] := by
        apply List.append_ne_nil_of_left_ne_nil
        rw [Ne, List.take_eq_nil_iff, not_or]
        exact ⟨by omega, hne⟩
      -- A whole number keeps one zero behind the point.
      have hfraction (ds : List Char) (hds : ∀ c ∈ ds, c.isDigit) (hne : ds ≠ [])
          (hlength : ds.length ≤ 3000) := isSome_of_parts hwhole hnonempty (.some hds hne) .none
        (by simp; omega) negative
      simp only [List.append_nil] at hfraction
      dsimp only
      cases hdrop : p.digits.drop p.point.toNat with
      | nil => exact hfraction ['0'] (by simp) (List.cons_ne_nil _ _) (by decide)
      | cons d ds =>
        have hrest : (d :: ds).length ≤ 3000 := by
          rw [← hdrop, List.length_drop]
          omega
        exact hfraction (d :: ds) (fun c hc => hdigits c (List.mem_of_mem_drop (hdrop ▸ hc)))
          (List.cons_ne_nil _ _) hrest

/-- The text of a number of the 64-bit format is a quantity, unless it is no number. -/
theorem isSome_of_inFormat {x : Binary64} (h : x.InFormat) (hnan : x ≠ .nan) :
    (ofText? x.text).isSome := by
  cases x with
  | finite s m e =>
    rw [Binary64.text, Binary64.render, ofText?, String.toList_ofList]
    apply isSome_of_small
    split
    · exact ⟨by decide, List.forall_mem_singleton.2 rfl, by decide, by decide⟩
    · exact Binary64.shortest_small h
  | infinite s => cases s <;> decide
  | nan => exact absurd rfl hnan

end Quantity

end VolumeExport
