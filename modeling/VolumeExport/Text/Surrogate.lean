namespace VolumeExport.Text

/-- Stands in front of what is held; no character by its standard. -/
def surrogateMark : Char := '\ufdd0'

def isSurrogate (n : Nat) : Bool := 0xd800 ≤ n && n < 0xe000

/-- The first of a pair. -/
def isLeadUnit (n : Nat) : Bool := 0xd800 ≤ n && n < 0xdc00

/-- The second of a pair. -/
def isTailUnit (n : Nat) : Bool := 0xdc00 ≤ n && n < 0xe000

/-- The code point that a pair stands for. -/
def ofPair (lead tail : Nat) : Nat := 0x10000 + (lead - 0xd800) * 0x400 + (tail - 0xdc00)

/-- The characters that hold a code point. One that is no character, which texts can write with an
escape, is held by a mark and the character 0x800 above it; the mark itself is held twice. -/
def hold (n : Nat) : List Char :=
  if isSurrogate n then [surrogateMark, Char.ofNat (n + 0x800)]
  else if n = surrogateMark.toNat then [surrogateMark, surrogateMark]
  else [Char.ofNat n]

/-- The characters that hold characters. -/
def held (cs : List Char) : List Char := cs.flatMap fun c => hold c.toNat

/-- The code points that characters hold. -/
def codes : List Char → List Nat
  | [] => []
  | [c] => [c.toNat]
  | c :: d :: cs =>
    if c = surrogateMark then
      (if d = surrogateMark then d.toNat else d.toNat - 0x800) :: codes cs
    else c.toNat :: codes (d :: cs)

theorem toNat_ofNat {n : Nat} (h : n.isValidChar) : (Char.ofNat n).toNat = n := by
  have hn : Char.ofNat n = Char.ofNatAux n h := dif_pos h
  rw [hn]
  rfl

theorem codes_cons {c : Char} (h : c ≠ surrogateMark) (cs : List Char) :
    codes (c :: cs) = c.toNat :: codes cs := by
  cases cs with
  | nil => rfl
  | cons d cs => simp [codes, h]

/-- A held code point is read back. -/
theorem codes_hold {n : Nat} (h : n.isValidChar ∨ isSurrogate n = true) (cs : List Char) :
    codes (hold n ++ cs) = n :: codes cs := by
  by_cases hs : isSurrogate n = true
  · have hb : 0xd800 ≤ n ∧ n < 0xe000 := by simpa [isSurrogate] using hs
    have hv : (n + 0x800).isValidChar := by
      simp only [Nat.isValidChar]
      omega
    have hm : Char.ofNat (n + 0x800) ≠ surrogateMark := by
      intro he
      have := congrArg Char.toNat he
      rw [toNat_ofNat hv] at this
      have : n + 0x800 = 0xfdd0 := this
      omega
    simp [hold, hs, codes, hm, toNat_ofNat hv]
  · have hv := h.resolve_right hs
    by_cases hm : n = surrogateMark.toNat
    · subst hm
      rfl
    · have hc : Char.ofNat n ≠ surrogateMark := fun he => hm (by rw [← toNat_ofNat hv, he])
      simp [hold, hs, hm, codes_cons hc, toNat_ofNat hv]

/-- The bytes of a text, all of whose code points have to be characters. -/
def utf8? (s : String) : Option (List UInt8) :=
  let ns := codes s.toList
  if ns.any isSurrogate then none
  else some (ns.flatMap fun n => String.utf8EncodeChar (Char.ofNat n))

end VolumeExport.Text
