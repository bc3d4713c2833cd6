import VolumeExport.Markup.Document
import VolumeExport.Markup.Schema
import VolumeExport.Volume.Fault

namespace VolumeExport.Volume

/-- Entries by their names, in the order in which the names first came. -/
abbrev Entries := List (String × Markup.Value)

namespace Entries

/-- A later entry of a name replaces the one before. -/
def insert (entries : Entries) (name : String) (entry : Markup.Value) : Entries :=
  match entries with
  | [] => [(name, entry)]
  | (n, e) :: rest => if n = name then (n, entry) :: rest else (n, e) :: insert rest name entry

def get? (entries : Entries) (name : String) : Option Markup.Value := entries.lookup name

/-- Entries over others that hold by default. -/
def withDefaults (declared defaults : Entries) : Entries :=
  declared.foldl (fun es e => insert es e.1 e.2) defaults

/-- The form of an entry. -/
def schema : Markup.Schema :=
  .record [
    ("name", true, .text),
    ("value", false, .any [.text, .whole, .number, .truth]),
    ("data", false, .mapping),
    ("enabled", false, .any [.text, .truth])]

def shown (v : Markup.Value) : Except Fault String := v.shown.mapError .unwritable

/-- The name of an entry that has the form of entries. -/
def checked (entry : Markup.Value) : Except Fault String := do
  if entry.entries?.isNone then throw (.refused (.noEntry (← shown entry)))
  let lines ← (Markup.Schema.faults [] schema entry).mapError Fault.unwritable
  if lines ≠ [] then
    let name ← shown ((entry.field? "name").getD .null)
    let heading := "Invalid volume config entry " ++ name ++ ":"
    throw (.refused (.badEntry (Markup.Schema.report heading lines)))
  return ((entry.field? "name").bind Markup.Value.text?).getD ""

/-- The entries of a document. -/
def ofValue (v : Markup.Value) : Except Fault Entries := do
  if v.isNull then return []
  match v.items? with
  | some items => items.foldlM (fun es entry => return insert es (← checked entry) entry) []
  | none => throw (.refused .noList)

/-- The value of a document, where a broken rule of the language has its own refusal. -/
def document (refusal : Refusal) (text : String) : Except Fault Markup.Value :=
  (Markup.Value.read text).mapError fun e => if e = .malformed then .refused refusal else .unfit e

/-- The entries that a text declares; a blank text declares none. -/
def parse (text : String) : Except Fault Entries := do
  if Text.strip text = "" then return [] else ofValue (← document .unreadable text)

end Entries

end VolumeExport.Volume
