namespace VolumeExport.Text

/-- The white space of every script: bidirectional class WS, B or S, or category Zs. -/
def isBlank (c : Char) : Bool :=
  let n := c.toNat
  (0x09 ≤ n && n ≤ 0x0d) || (0x1c ≤ n && n ≤ 0x20) || n == 0x85 || n == 0xa0 || n == 0x1680 ||
    (0x2000 ≤ n && n ≤ 0x200a) || n == 0x2028 || n == 0x2029 || n == 0x202f || n == 0x205f ||
    n == 0x3000

def trimLeft (cs : List Char) : List Char := cs.dropWhile isBlank

def trimRight (cs : List Char) : List Char := (cs.reverse.dropWhile isBlank).reverse

def trim (cs : List Char) : List Char := trimRight (trimLeft cs)

/-- No blank at either end. -/
def IsTrimmed (cs : List Char) : Prop :=
  (∀ c ∈ cs.head?, isBlank c = false) ∧ ∀ c ∈ cs.getLast?, isBlank c = false

instance (cs : List Char) : Decidable (IsTrimmed cs) :=
  inferInstanceAs (Decidable (_ ∧ _))

/-- The text without the blanks at its ends. -/
def strip (s : String) : String := String.ofList (trim s.toList)

/-- The blanks that may stand around a numeral; the four separators of files, groups, records and
units are none of them. -/
def isPadding (c : Char) : Bool := isBlank c && !(0x1c ≤ c.toNat && c.toNat ≤ 0x1f)

/-- What stands between the padding at both ends. -/
def unpad (cs : List Char) : List Char :=
  ((cs.dropWhile isPadding).reverse.dropWhile isPadding).reverse

theorem head?_trimLeft (cs : List Char) : ∀ c ∈ (trimLeft cs).head?, isBlank c = false := by
  intro c hc
  induction cs with
  | nil => simp [trimLeft] at hc
  | cons d ds ih =>
    by_cases hd : isBlank d
    · exact ih (by simpa [trimLeft, List.dropWhile_cons, hd] using hc)
    · have : d = c := by simpa [trimLeft, List.dropWhile_cons, hd] using hc
      subst this
      simpa using hd

theorem getLast?_trimRight (cs : List Char) :
    ∀ c ∈ (trimRight cs).getLast?, isBlank c = false := by
  intro c hc
  rw [trimRight, List.getLast?_reverse] at hc
  exact head?_trimLeft cs.reverse c hc

theorem trimLeft_eq_self {cs : List Char} (h : ∀ c ∈ cs.head?, isBlank c = false) :
    trimLeft cs = cs := by
  cases cs with
  | nil => rfl
  | cons c cs => simp [trimLeft, h c (by simp)]

theorem trimRight_eq_self {cs : List Char} (h : ∀ c ∈ cs.getLast?, isBlank c = false) :
    trimRight cs = cs := by
  have : trimLeft cs.reverse = cs.reverse := trimLeft_eq_self (by simpa using h)
  rw [trimRight, ← trimLeft, this, List.reverse_reverse]

theorem trim_eq_self {cs : List Char} (h : IsTrimmed cs) : trim cs = cs := by
  rw [trim, trimLeft_eq_self h.1, trimRight_eq_self h.2]

theorem trimRight_prefix (cs : List Char) : trimRight cs <+: cs := by
  have h : trimRight cs <+: cs.reverse.reverse := List.reverse_prefix.2 (List.dropWhile_suffix _)
  rwa [List.reverse_reverse] at h

theorem isTrimmed_trim (cs : List Char) : IsTrimmed (trim cs) := by
  refine ⟨fun c hc => head?_trimLeft cs c ?_, getLast?_trimRight _⟩
  obtain ⟨rest, hrest⟩ := trimRight_prefix (trimLeft cs)
  rw [← hrest, List.head?_append, ← trim, Option.mem_def.1 hc]
  rfl

theorem strip_strip (s : String) : strip (strip s) = strip s := by
  rw [strip, strip, String.toList_ofList, trim_eq_self (isTrimmed_trim s.toList)]

end VolumeExport.Text
