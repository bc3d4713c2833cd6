import VolumeExport.Markup.Value

namespace VolumeExport.Markup.SetOrder

/-- Residues are taken modulo this prime, `2 ^ 61 - 1`. -/
def modulus : Nat := 0x1fffffffffffffff

/-- A residue with a sign in sixty-four bits. There is no residue of minus one, minus two stands in
for it. -/
def word (negative : Bool) (residue : Nat) : Nat :=
  if !negative || residue = 0 then residue
  else 0x10000000000000000 - (if residue = 1 then 2 else residue)

/-- The residue of a number. Powers of two have a period of 61, so equal numbers of different kinds
have equal residues. -/
def word? : Value → Option Nat
  | .bool b => some (if b then 1 else 0)
  | .int n => some (word (n < 0) (n.natAbs % modulus))
  | .real (.finite s m e) => some (word s (m * Nat.pow 2 (e % 61).toNat % modulus))
  | .real (.infinite s) => some (word s 314159)
  | _ => none

/-- The places of a table for some items: a power of two, more than twice their number. -/
def size (items : Nat) : Nat := if items < 5 then 8 else Nat.pow 2 ((2 * items).log2 + 1)

abbrev Table := Array (Option Value)

/-- A place and the nine behind it, if there are as many. -/
def stretch (size place : Nat) : List Nat :=
  if place + 9 < size then (List.range 10).map (place + ·) else [place]

/-- The first free place that is looked at from a place on. The bits of the word that have not been
used yet lead away from it; when none are left, every place gets its turn. -/
def free? (table : Table) : Nat → Nat → Nat → Option Nat
  | 0, _, _ => none
  | fuel + 1, word, place =>
    match (stretch table.size place).find? fun p => (table.getD p none).isNone with
    | some p => some p
    | none =>
      let word := word / 32
      free? table fuel word ((place * 5 + 1 + word) % table.size)

def insert (table : Table) (word : Nat) (item : Value) : Table :=
  match free? table (table.size + 16) word (word % table.size) with
  | some place => table.setIfInBounds place (some item)
  | none => table

/-- The items of a set as it shows them: they lie in a table and are shown from its first place to
its last. Only numbers have residues, so a set with other items shows them in the order in which
they came. -/
def arrange (items : List Value) : List Value :=
  match items.mapM word? with
  | some words =>
    let table := (words.zip items).foldl (fun t p => insert t p.1 p.2)
      (.replicate (size items.length) none)
    table.toList.filterMap id
  | none => items

end VolumeExport.Markup.SetOrder
