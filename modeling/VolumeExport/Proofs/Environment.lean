import VolumeExport.Proofs.Figures
import VolumeExport.Settings

namespace VolumeExport

namespace Duration

def longest : Int := (maxDays + 1) * Offset.secondsPerDay - 1

theorem isRepresentable_ofSeconds {n : Int} (h : 0 < n) :
    (ofSeconds n).isRepresentable ↔ n ≤ longest := by
  have hdays : (ofSeconds n).days = n * 1000000 / 86400000000 :=
    Int.fdiv_eq_ediv_of_nonneg _ (by decide)
  have hlongest : longest = 86399999999999 := rfl
  have hmax : maxDays = 999999999 := rfl
  rw [isRepresentable, decide_eq_true_iff, hdays]
  omega

end Duration

namespace Settings

open Text (Blank Around IsTrimmed)
open Numeral (Spells read)

variable {environment : Dict String} {name value fallback : String} {default d : Duration} {n : Int}

def Unset (environment : Dict String) (name : String) : Prop :=
  ∀ text, environment.get? name = some text → Blank text.toList

def Neat (text : String) : Prop := text ≠ "" ∧ IsTrimmed text.toList

instance (text : String) : Decidable (Neat text) :=
  decidable_of_iff (text ≠ "" ∧ Text.trim text.toList = text.toList)
    (and_congr_right' Affinity.isTrimmed_iff.symm)

/-- What counts for a variable: the text that it holds among blanks, or else the default. -/
structure Takes (environment : Dict String) (name fallback value : String) : Prop where
  neat : Neat value
  source : (∃ text, environment.get? name = some text ∧ Around value.toList text.toList) ∨
    Unset environment name ∧ value = fallback

def Declares (environment : Dict String) (name : String) (n : Int) : Prop :=
  ∃ text, environment.get? name = some text ∧ Spells text n

/-- What counts for a variable of a span of time: the seconds that it spells, if they are positive
and can be held, or else the default. -/
def Adopts (environment : Dict String) (name : String) (default d : Duration) : Prop :=
  (∃ n, Declares environment name n ∧ 0 < n ∧ n ≤ Duration.longest ∧ d = .ofSeconds n) ∨
    (∀ n, Declares environment name n → 0 < n → Duration.longest < n) ∧ d = default

/-- A variable spells more seconds than can be held. -/
def Overlong (environment : Dict String) (name : String) (n : Int) : Prop :=
  Declares environment name n ∧ Duration.longest < n

theorem setting?_eq_some_iff : setting? environment name = some value ↔
    (∃ text, environment.get? name = some text ∧ Text.strip text = value) ∧ value ≠ "" := by
  rw [setting?, Option.filter_eq_some_iff, Option.map_eq_some_iff, decide_eq_true_iff]

theorem strip_eq_empty_iff {text : String} : Text.strip text = "" ↔ Blank text.toList := by
  rw [Text.strip, String.ofList_eq_empty_iff, Text.trim_eq_nil_iff]

theorem setting?_eq_none_iff : setting? environment name = none ↔ Unset environment name := by
  rw [setting?, Option.filter_eq_none_iff]
  constructor
  · intro h text htext
    have hempty := h (Text.strip text) (by rw [htext]; rfl)
    exact strip_eq_empty_iff.1 (by simpa using hempty)
  · intro h value hvalue
    obtain ⟨text, htext, rfl⟩ := Option.map_eq_some_iff.1 hvalue
    simpa using strip_eq_empty_iff.2 (h text htext)

theorem takes_of_some (h : setting? environment name = some value) :
    Takes environment name fallback value := by
  obtain ⟨⟨text, htext, rfl⟩, hne⟩ := setting?_eq_some_iff.1 h
  have hlist : (Text.strip text).toList = Text.trim text.toList := String.toList_ofList
  refine ⟨⟨hne, ?_⟩, .inl ⟨text, htext, ?_⟩⟩
  · rw [hlist]
    exact Text.isTrimmed_trim text.toList
  · rw [hlist]
    exact Text.around_trim text.toList

theorem takes_getD (h : Neat fallback) :
    Takes environment name fallback ((setting? environment name).getD fallback) := by
  cases hset : setting? environment name with
  | none => exact ⟨h, .inr ⟨setting?_eq_none_iff.1 hset, rfl⟩⟩
  | some value => exact takes_of_some hset

/-! ### Spans of time -/

theorem declares_iff (h : setting? environment name = some value) :
    Declares environment name n ↔ read 10 value = .ok n := by
  obtain ⟨⟨text, htext, rfl⟩, -⟩ := setting?_eq_some_iff.1 h
  rw [Numeral.read_strip_eq_ok_iff]
  constructor
  · rintro ⟨text', htext', hspells⟩
    cases htext.symm.trans htext'
    exact hspells
  · exact fun hspells => ⟨text, htext, hspells⟩

theorem not_declares (h : Unset environment name) : ¬Declares environment name n := by
  rintro ⟨text, htext, hspells⟩
  have hread := Numeral.read_strip_eq_ok_iff.2 hspells
  rw [strip_eq_empty_iff.2 (h text htext)] at hread
  cases hread

/-- Where a variable holds something, its number counts as zero if it spells none. -/
theorem seconds_of_some (h : setting? environment name = some value) (hn : 0 < n) :
    (read 10 value).toOption.getD 0 = n ↔ Declares environment name n := by
  rw [declares_iff h]
  cases read 10 value with
  | ok m => exact ⟨congrArg Except.ok, Except.ok.inj⟩
  | error e => exact ⟨fun hzero => absurd hzero (Int.ne_of_lt hn), nofun⟩

/-- A span of time is read, unless it is too long. -/
theorem seconds_cases (environment : Dict String) (name : String) (default : Duration) :
    (∃ d notices, seconds environment name default = .ok (d, notices) ∧
      Adopts environment name default d ∧ ∀ n, ¬Overlong environment name n) ∨
    ∃ n, Overlong environment name n ∧
      seconds environment name default = .error (.tooLong name n) := by
  rw [seconds]
  cases hset : setting? environment name with
  | none =>
    have hunset := setting?_eq_none_iff.1 hset
    exact .inl ⟨default, [], rfl, .inr ⟨fun _ h => absurd h (not_declares hunset), rfl⟩,
      fun _ h => not_declares hunset h.1⟩
  | some value =>
    dsimp only
    have hdeclares {n : Int} (hn : 0 < n) := seconds_of_some hset hn
    generalize (read 10 value).toOption.getD 0 = m at hdeclares
    have hlongest : 0 < Duration.longest := by decide
    split
    · next hle =>
      have hnone (n : Int) (h : Declares environment name n) (hn : 0 < n) : False :=
        absurd ((hdeclares hn).2 h) (by omega)
      exact .inl ⟨default, _, rfl, .inr ⟨fun n h hn => (hnone n h hn).elim, rfl⟩,
        fun n h => hnone n h.1 (Int.lt_trans hlongest h.2)⟩
    · next hpos =>
      have hpos : 0 < m := by omega
      have hdeclared : Declares environment name m := (hdeclares hpos).1 rfl
      split
      · next hfits =>
        have hfits := (Duration.isRepresentable_ofSeconds hpos).1 hfits
        refine .inl ⟨.ofSeconds m, [], rfl, .inl ⟨m, hdeclared, hpos, hfits, rfl⟩, fun n h => ?_⟩
        have heq := (hdeclares (Int.lt_trans hlongest h.2)).2 h.1
        have hlt := h.2
        omega
      · next hlong =>
        rw [Duration.isRepresentable_ofSeconds hpos, Int.not_le] at hlong
        exact .inr ⟨m, ⟨hdeclared, hlong⟩, rfl⟩

theorem declares_unique {m : Int} (hm : Declares environment name m)
    (hn : Declares environment name n) : m = n := by
  obtain ⟨text, htext, hspells⟩ := hm
  obtain ⟨text', htext', hspells'⟩ := hn
  cases htext.symm.trans htext'
  have hread := Numeral.read_strip_eq_ok_iff.2 hspells
  rw [Numeral.read_strip_eq_ok_iff.2 hspells'] at hread
  exact (Except.ok.inj hread).symm

theorem Adopts.pos (h : Adopts environment name default d) (hdefault : 0 < default.microseconds) :
    0 < d.microseconds := by
  rcases h with ⟨n, -, hn, -, rfl⟩ | ⟨-, rfl⟩
  · exact Int.mul_pos hn (by decide)
  · exact hdefault

/-! ### All settings -/

/-- The settings that an environment gives. -/
structure Loaded (environment : Dict String) (settings : Settings) : Prop where
  claimNamespace : Takes environment Variable.ownNamespace "" settings.claimNamespace
  serverNamespace :
    Takes environment Variable.serverNamespace settings.claimNamespace settings.serverNamespace
  serverType :
    Takes environment Variable.serverType supportedServerType settings.defaultServerType
  serverImage : Takes environment Variable.serverImage defaultServerImage settings.serverImage
  sweepInterval : 0 < settings.sweepInterval.microseconds ∧
    Adopts environment Variable.sweepInterval defaultSweepInterval settings.sweepInterval
  bindTimeout : 0 < settings.bindTimeout.microseconds ∧
    Adopts environment Variable.bindTimeout defaultBindTimeout settings.bindTimeout

/-- The first variable that makes settings impossible, with the seconds that it spells. -/
inductive Impeded (environment : Dict String) : String → Int → Prop
  | interval {n : Int} : Overlong environment Variable.sweepInterval n →
      Impeded environment Variable.sweepInterval n
  | timeout {n : Int} : (∀ m, ¬Overlong environment Variable.sweepInterval m) →
      Overlong environment Variable.bindTimeout n → Impeded environment Variable.bindTimeout n

/-- How the reading of settings ends. -/
inductive Outcome (environment : Dict String) : Except Fault (Settings × List String) → Prop
  | unset : Unset environment Variable.ownNamespace → Outcome environment (.error .noNamespace)
  | impeded {name : String} {n : Int} : ¬Unset environment Variable.ownNamespace →
      Impeded environment name n → Outcome environment (.error (.tooLong name n))
  | loaded {settings : Settings} {notices : List String} :
      ¬Unset environment Variable.ownNamespace → (∀ name n, ¬Impeded environment name n) →
      Loaded environment settings → Outcome environment (.ok (settings, notices))

theorem outcome_ofEnvironment (environment : Dict String) :
    Outcome environment (ofEnvironment environment) := by
  rw [ofEnvironment]
  dsimp only
  cases hown : setting? environment Variable.ownNamespace with
  | none => exact .unset (setting?_eq_none_iff.1 hown)
  | some own =>
    have hset : ¬Unset environment Variable.ownNamespace := by
      rw [← setting?_eq_none_iff, hown]
      exact Option.some_ne_none own
    have htakes : Takes environment Variable.ownNamespace "" own := takes_of_some hown
    dsimp only
    rcases seconds_cases environment Variable.sweepInterval defaultSweepInterval with
      ⟨interval, notices, hinterval, hadopts, hfits⟩ | ⟨n, hlong, hinterval⟩
    · rcases seconds_cases environment Variable.bindTimeout defaultBindTimeout with
        ⟨timeout, more, htimeout, hadopts', hfits'⟩ | ⟨n, hlong, htimeout⟩
      · rw [hinterval, htimeout]
        apply Outcome.loaded hset
        · rintro name n (hlong | ⟨-, hlong⟩)
          · exact hfits n hlong
          · exact hfits' n hlong
        · exact {
            claimNamespace := htakes
            serverNamespace := takes_getD htakes.neat
            serverType := takes_getD (by decide)
            serverImage := takes_getD (by decide)
            sweepInterval := ⟨hadopts.pos (by decide), hadopts⟩
            bindTimeout := ⟨hadopts'.pos (by decide), hadopts'⟩ }
      · rw [hinterval, htimeout]
        exact .impeded hset (.timeout hfits hlong)
    · rw [hinterval]
      exact .impeded hset (.interval hlong)

theorem impeded_unique {name' : String} {m : Int} (h : Impeded environment name n)
    (h' : Impeded environment name' m) : name = name' ∧ n = m := by
  cases h with
  | interval hn =>
    cases h' with
    | interval hm => exact ⟨rfl, declares_unique hn.1 hm.1⟩
    | timeout hnone => exact absurd hn (hnone n)
  | timeout hnone hn =>
    cases h' with
    | interval hm => exact absurd hm (hnone m)
    | timeout _ hm => exact ⟨rfl, declares_unique hn.1 hm.1⟩

/-- Settings are refused for want of a namespace if and only if the variable for it is absent or
blank. Otherwise they are refused if and only if a variable spells more seconds than can be held,
and if none does then they are read: texts are neither empty nor have blanks at their ends, spans of
time are positive, and what a variable holds counts if it can be used, and its default if not. -/
theorem loaded_unless_impeded (environment : Dict String) :
    (ofEnvironment environment = .error .noNamespace ↔
      Unset environment Variable.ownNamespace) ∧
    (∀ name n, ofEnvironment environment = .error (.tooLong name n) ↔
      ¬Unset environment Variable.ownNamespace ∧ Impeded environment name n) ∧
    (¬Unset environment Variable.ownNamespace → (∀ name n, ¬Impeded environment name n) →
      ∃ settings notices, ofEnvironment environment = .ok (settings, notices) ∧
        Loaded environment settings) := by
  have houtcome := outcome_ofEnvironment environment
  generalize ofEnvironment environment = r at houtcome
  cases houtcome with
  | unset hunset =>
    refine ⟨⟨fun _ => hunset, fun _ => rfl⟩, fun name n => ⟨nofun, fun h => absurd hunset h.1⟩, ?_⟩
    exact fun hset => absurd hunset hset
  | impeded hset himpeded =>
    refine ⟨⟨nofun, fun hunset => absurd hunset hset⟩, fun name n => ⟨?_, ?_⟩, ?_⟩
    · rintro ⟨⟩
      exact ⟨hset, himpeded⟩
    · rintro ⟨-, h⟩
      obtain ⟨rfl, rfl⟩ := impeded_unique himpeded h
      rfl
    · exact fun _ hfree => absurd himpeded (hfree _ _)
  | loaded hset hfree hloaded =>
    refine ⟨⟨nofun, fun hunset => absurd hunset hset⟩, fun name n => ⟨nofun, ?_⟩, ?_⟩
    · exact fun h => absurd h.2 (hfree name n)
    · exact fun _ _ => ⟨_, _, rfl, hloaded⟩

def foreign : Dict String := .ofList [(Variable.ownNamespace, " exports\n"),
  (Variable.sweepInterval, "+٣_٠"), (Variable.bindTimeout, "soon")]

theorem loaded_unless_impeded_foreign :
    ¬Unset foreign Variable.ownNamespace ∧ (∀ name n, ¬Impeded foreign name n) ∧
      ∃ settings notices, ofEnvironment foreign = .ok (settings, notices) ∧
        Loaded foreign settings := by
  have hset : ¬Unset foreign Variable.ownNamespace := by
    rw [← setting?_eq_none_iff]
    decide
  have hfree : ∀ name n, ¬Impeded foreign name n := by
    rintro name n (hlong | ⟨-, hlong⟩)
    · have hinterval : setting? foreign Variable.sweepInterval = some "+٣_٠" := by decide
      cases (declares_iff hinterval).1 hlong.1
      exact absurd hlong.2 (by decide)
    · have htimeout : setting? foreign Variable.bindTimeout = some "soon" := by decide
      cases (declares_iff htimeout).1 hlong.1
  exact ⟨hset, hfree, (loaded_unless_impeded foreign).2.2 hset hfree⟩

def overlong : Dict String := .ofList [(Variable.ownNamespace, "exports"),
  (Variable.sweepInterval, "86400000000000")]

/-- A namespace is set, and the settings are refused for the span of time. -/
theorem refused_with_namespace :
    ¬∀ environment, (∃ f, ofEnvironment environment = .error f) ↔
      Unset environment Variable.ownNamespace := by
  intro h
  have hrefused : ofEnvironment overlong =
    .error (.tooLong Variable.sweepInterval 86400000000000) := by decide
  have hunset := (h overlong).1 ⟨_, hrefused⟩
  rw [← setting?_eq_none_iff] at hunset
  exact absurd hunset (by decide)

end Settings

end VolumeExport
