import VolumeExport.Markup.Fault

namespace VolumeExport.Volume

/-- The declaration is missing or has the wrong form. Values are given as they are shown. -/
inductive Refusal
  | unreadable
  | noList
  | noEntry (shown : String)
  /-- An entry does not have the form of entries. -/
  | badEntry (message : String)
  | notWhole (key text : String)
  | notOctal (text : String)
  | unreadableResources (key : String)
  | noResources (key text : String)
  | badQuantity (shown name key : String)
  | noClass (claimNamespace claim : String)
  | unknownClass (className : String)
  | noStorage (claimNamespace claim : String)
  deriving DecidableEq, Repr

def permissionsKey : String := "FilePermissions"

def Refusal.message : Refusal → String
  | .unreadable => "Invalid volume config: " ++ Markup.Fault.message .malformed
  | .noList => "Volume config must be a list of entries"
  | .noEntry shown => "Invalid volume config entry " ++ shown
  | .badEntry message => message
  | .notWhole key text => key ++ " must be an integer, got " ++ Text.quoted text
  | .notOctal text => permissionsKey ++ " mode must be octal, got " ++ Text.quoted text
  | .unreadableResources key => "Invalid " ++ key ++ ": " ++ Markup.Fault.message .malformed
  | .noResources key text => key ++ " must be a mapping, got " ++ Text.quoted text
  | .badQuantity shown name key =>
    "Invalid quantity " ++ shown ++ " for " ++ name ++ " in " ++ key
  | .noClass claimNamespace claim =>
    "Claim " ++ claimNamespace ++ "/" ++ claim ++ " has no storage class"
  | .unknownClass className => "Storage class " ++ Text.quoted className ++ " does not exist"
  | .noStorage claimNamespace claim =>
    "Claim " ++ claimNamespace ++ "/" ++ claim ++ " does not request storage"

inductive Fault
  | refused (cause : Refusal)
  /-- A scalar of the declaration does not fit its tag. -/
  | unfit (cause : Markup.Fault)
  /-- A number of the declaration has too many digits to be shown. -/
  | unwritable (cause : Numeral.Fault)
  /-- Something other than a mapping stands where a mapping belongs. -/
  | noMapping
  deriving DecidableEq, Repr

def Fault.message : Fault → String
  | .refused cause => cause.message
  | .unfit cause => cause.message
  | .unwritable cause => cause.message
  | .noMapping => "a mapping is needed"

end VolumeExport.Volume
