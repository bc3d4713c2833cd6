import VolumeExport.Proofs.Markup.Octal
import VolumeExport.Volume.Config

namespace VolumeExport.Volume

open Markup

theorem checked_entry (n : Int) : Entries.checked (.entry (.int n)) = .ok permissionsKey := by
  have hfaults : Schema.faults [] Entries.schema (.entry (.int n)) = .ok [] := by
    simp [Entries.schema, Schema.faults, Value.entry, Value.entries?, Value.unfold,
      Schema.unexpected, Schema.fieldFaults, Value.look, Value.text?, Schema.isText,
      Value.isNull]
  have hname : ((Value.entry (.int n)).field? "name").bind Value.text? = some permissionsKey := by
    simp [Value.entry, Value.field?, Value.entries?, Value.unfold, Value.look, Value.text?,
      permissionsKey]
  have hentries : ((Value.entry (.int n)).entries?.isNone) = false := rfl
  rw [Entries.checked, hentries, hfaults, hname]
  rfl

theorem ofValue_entry (n : Int) :
    Entries.ofValue (.list [.entry (.int n)]) = .ok [(permissionsKey, .entry (.int n))] := by
  have hitems : (Value.list [.entry (.int n)]).items? = some [.entry (.int n)] := rfl
  rw [Entries.ofValue, hitems]
  simp [Value.isNull, checked_entry, Entries.insert]

namespace Config

variable {n : Int} {name : String}

theorem field_of_absent (h : name ≠ permissionsKey) (f : String) :
    field [(permissionsKey, .entry (.int n))] name f = .ok .null := by
  have hget : Entries.get? [(permissionsKey, .entry (.int n))] name = none := by
    simp [Entries.get?, h]
  rw [field, hget]
  rfl

theorem value_of_absent (h : name ≠ permissionsKey) :
    value [(permissionsKey, .entry (.int n))] name = .ok "" := by
  rw [value, field_of_absent h]
  rfl

theorem data_of_absent (h : name ≠ permissionsKey) :
    data [(permissionsKey, .entry (.int n))] name = .ok .null := field_of_absent h "data"

theorem data_permissions :
    data [(permissionsKey, .entry (.int n))] permissionsKey =
      .ok (.map [(.text "mode", .int n)]) := by
  have hget : Entries.get? [(permissionsKey, .entry (.int n))] permissionsKey =
      some (.entry (.int n)) := by
    simp [Entries.get?]
  rw [data, field, hget]
  simp [mappingIfAny, isVoid, mapping, Value.entry, Value.entries?, Value.unfold, Value.look]

theorem permissionsOf_mode :
    permissionsOf (.map [(.text "mode", .int n)]) = (do
      let mode ← stripped (.int n)
      if mode ≠ "" ∧ (Numeral.read 8 mode).toOption.isNone then throw (.refused (.notOctal mode))
      return some ⟨none, none, if mode = "" then none else some mode⟩) := by
  simp [permissionsOf, isVoid, mapping, Value.entries?, Value.unfold, textOf, Value.look,
    wholeIfSet]

theorem ofEntries_entry :
    ofEntries [(permissionsKey, .entry (.int n))] = (do
      let permissions ← permissionsOf (.map [(.text "mode", .int n)])
      return { Config.default with permissions }) := by
  simp (disch := decide) [ofEntries, value_of_absent, data_of_absent, data_permissions, period,
    wholeIfSet, resources]
  cases permissionsOf (.map [(.text "mode", .int n)]) with
  | error => rfl
  | ok permissions => rfl

end Config

/-- What octal digits without quotes declare as the mode. -/
def declared (d : String) : Except Fault Config := do
  Config.ofEntries (← Entries.parse (entryText d))

theorem parse_entryText (d : String) : Entries.parse (entryText d) =
    (Entries.document .unreadable (entryText d) >>= Entries.ofValue) := by
  have hblank : Text.strip (entryText d) ≠ "" := by
    rw [Text.strip, toList_entryText, Text.trim_eq_self isTrimmed_entryChars]
    intro heq
    cases String.ofList_inj.1 (heq.trans String.ofList_nil.symm)
  rw [Entries.parse, if_neg hblank]

theorem declared_of_int {d : String} {n : Int} (h : IsOctal d.toList)
    (hn : Scalar.int d.toList = .ok n) :
    declared d = (do
      let permissions ← Config.permissionsOf (.map [(.text "mode", .int n)])
      return { Config.default with permissions }) := by
  have hdocument : Entries.document .unreadable (entryText d) = .ok (.list [.entry (.int n)]) := by
    rw [Entries.document, Value.read_entryText h.isWord (Tag.ofPlain_of_isOctal h), hn]
    rfl
  rw [declared, parse_entryText, hdocument, Except.ok_bind, ofValue_entry, Except.ok_bind,
    Config.ofEntries_entry]

theorem declared_of_error {d : String} {e : Markup.Fault} (h : IsOctal d.toList)
    (he : Scalar.int d.toList = .error e) (hne : e ≠ .malformed) :
    declared d = .error (.unfit e) := by
  have hdocument : Entries.document .unreadable (entryText d) = .error (.unfit e) := by
    rw [Entries.document, Value.read_entryText h.isWord (Tag.ofPlain_of_isOctal h), he,
      Except.error_bind, Except.mapError, if_neg hne]
  rw [declared, parse_entryText, hdocument]
  rfl

theorem stripped_natCast (n : Nat) :
    Config.stripped (.int n) = if (toString n).length ≤ Numeral.maxDigits then .ok (toString n)
      else .error (.unwritable .tooLarge) := by
  have hstrip : Text.strip (toString n) = toString n := Numeral.strip_toString n
  have hplain : Value.plainText (.int n) = Numeral.write n := rfl
  rw [Config.stripped, hplain, Numeral.write_natCast]
  split
  · exact congrArg Except.ok hstrip
  · rfl

def Config.withMode (mode : String) : Config :=
  { Config.default with permissions := some ⟨none, none, some mode⟩ }

theorem declared_of_natCast {d : String} {n : Nat} (h : IsOctal d.toList)
    (hn : Scalar.int d.toList = .ok (n : Int)) :
    declared d =
      if (toString n).length ≤ Numeral.maxDigits then
        if Numeral.looksOctal n then .ok (.withMode (toString n))
        else .error (.refused (.notOctal (toString n)))
      else .error (.unwritable .tooLarge) := by
  have hne : toString n ≠ "" := Numeral.toString_ne_empty n
  have hread := Numeral.read_toString n
  rw [declared_of_int h hn, Config.permissionsOf_mode, stripped_natCast]
  generalize toString n = text at *
  split
  · by_cases hall : Numeral.looksOctal n
    · rw [if_pos hall] at hread ⊢
      simp [hread, hne, Except.toOption]
      rfl
    · rw [if_neg hall] at hread ⊢
      simp [hread, hne, Except.toOption]
      rfl
  · rfl

theorem declared_of_nonzero {d : String} (h : IsOctal d.toList)
    (hzero : d.toList.head? ≠ some '0') :
    declared d = if d.length ≤ Numeral.maxDigits then .ok (.withMode d)
      else .error (.unfit (.noNumeral (.tooLong d.length))) := by
  have hint := Scalar.int_of_isOctal h
  rw [if_neg hzero, String.length_toList] at hint
  split
  · next hlength =>
    have htext := Numeral.toString_ofDigitChars h.isDigit h.1 hzero
    have hall : Numeral.looksOctal (Nat.ofDigitChars 10 d.toList 0) := by
      rw [Numeral.looksOctal_iff, Numeral.toDigits_of_isDigit h.isDigit h.1 hzero]
      exact fun c hc => (h.2 c hc).2
    rw [if_pos hlength] at hint
    rw [declared_of_natCast h hint, htext, if_pos hlength, if_pos hall]
  · next hlength =>
    rw [if_neg hlength] at hint
    exact declared_of_error h hint nofun

theorem declared_of_zero {d : String} (h : IsOctal d.toList) (hzero : d.toList.head? = some '0') :
    declared d =
      let n := Nat.ofDigitChars 8 d.toList 0
      if (toString n).length ≤ Numeral.maxDigits then
        if Numeral.looksOctal n then .ok (.withMode (toString n))
        else .error (.refused (.notOctal (toString n)))
      else .error (.unwritable .tooLarge) := by
  have hint := Scalar.int_of_isOctal h
  rw [if_pos hzero] at hint
  exact declared_of_natCast h hint

/-- Octal digits without quotes mean the same mode as with quotes unless there is a zero in front
and the number is not below eight: with a zero in front they are read in base eight and written in
base ten. -/
theorem mode_of_octal {d : String} (h : IsOctal d.toList) :
    Numeral.read 8 d = .ok (Nat.ofDigitChars 8 d.toList 0 : Nat) ∧
    (d.toList.head? ≠ some '0' →
      declared d = if d.length ≤ Numeral.maxDigits then .ok (.withMode d)
        else .error (.unfit (.noNumeral (.tooLong d.length)))) ∧
    (d.toList.head? = some '0' →
      declared d =
        let n := Nat.ofDigitChars 8 d.toList 0
        if (toString n).length ≤ Numeral.maxDigits then
          if Numeral.looksOctal n then .ok (.withMode (toString n))
          else .error (.refused (.notOctal (toString n)))
        else .error (.unwritable .tooLarge)) ∧
    ∀ config, declared d = .ok config → ∃ mode, config = .withMode mode ∧
      (Numeral.read 8 mode = Numeral.read 8 d ↔
        d.toList.head? ≠ some '0' ∨ Nat.ofDigitChars 8 d.toList 0 < 8) := by
  have hread : Numeral.read 8 d = .ok (Nat.ofDigitChars 8 d.toList 0 : Nat) := by
    have hdigits := Numeral.read_of_lt h.1 h.isDigit h.digitOf_lt
    rwa [String.ofList_toList] at hdigits
  refine ⟨hread, declared_of_nonzero h, declared_of_zero h, ?_⟩
  intro config hconfig
  by_cases hzero : d.toList.head? = some '0'
  · rw [declared_of_zero h hzero] at hconfig
    dsimp only at hconfig
    split at hconfig
    · split at hconfig
      · refine ⟨_, (Except.ok.inj hconfig).symm, ?_⟩
        rw [hread, Numeral.read_toString_eq_iff]
        simp [hzero]
      · cases hconfig
    · cases hconfig
  · rw [declared_of_nonzero h hzero] at hconfig
    split at hconfig
    · exact ⟨d, (Except.ok.inj hconfig).symm, by simp [hzero]⟩
    · cases hconfig

theorem mode_of_octal_zero :
    IsOctal "0644".toList ∧ "0644".toList.head? = some '0' ∧
      declared "0644" = .ok (.withMode "420") ∧
      Numeral.read 8 "420" ≠ Numeral.read 8 "0644" := by
  have h : IsOctal "0644".toList := by decide
  obtain ⟨hread, -, hdeclared, hsame⟩ := mode_of_octal h
  have hvalue : Nat.ofDigitChars 8 "0644".toList 0 = 420 := by decide
  have hconfig : declared "0644" = .ok (.withMode "420") := by
    rw [hdeclared (by decide), hvalue]
    rfl
  obtain ⟨mode, hmode, hiff⟩ := hsame _ hconfig
  obtain rfl : "420" = mode := by
    simpa [Config.withMode] using hmode
  refine ⟨h, by decide, hconfig, fun heq => ?_⟩
  have hsmall := hiff.1 heq
  rw [hvalue] at hsmall
  revert hsmall
  decide

/-- With a zero in front the mode may be another one. -/
theorem octal_changed :
    ¬∀ d : String, IsOctal d.toList →
      (∃ cause, declared d = .error (.refused cause)) ∨
        ∃ config permissions mode, declared d = .ok config ∧
          config.permissions = some permissions ∧ permissions.mode = some mode ∧
          Numeral.read 8 mode = Numeral.read 8 d := by
  intro h
  have hconfig : declared "0644" = .ok (.withMode "420") := by
    have hzero := declared_of_zero (d := "0644") (by decide) (by decide)
    have hvalue : Nat.ofDigitChars 8 "0644".toList 0 = 420 := by decide
    rw [hzero, hvalue]
    rfl
  cases h "0644" (by decide) with
  | inl hrefused =>
    obtain ⟨cause, hcause⟩ := hrefused
    cases hconfig.symm.trans hcause
  | inr hok =>
    obtain ⟨config, permissions, mode, hok, hset, hmode, hsame⟩ := hok
    cases hconfig.symm.trans hok
    cases hset
    cases hmode
    revert hsame
    decide

end VolumeExport.Volume
