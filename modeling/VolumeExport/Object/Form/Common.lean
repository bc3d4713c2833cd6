import VolumeExport.Object.Form

namespace VolumeExport.Form

/-- The names of a kind of objects. -/
def kindFields : List Field := texts ["apiVersion", "kind"]

def managedFields : Form := ofGroups [
  texts ["apiVersion", "fieldsType", "manager", "operation", "subresource"],
  times ["time"],
  [may "fieldsV1" .any]]

def ownerReference : Form := ofGroups [
  needTexts ["apiVersion", "kind", "name", "uid"],
  truths ["blockOwnerDeletion", "controller"]]

def metadata : Form := ofGroups [
  texts ["generateName", "name", "namespace", "resourceVersion", "selfLink", "uid"],
  textDicts ["annotations", "labels"],
  textLists ["finalizers"],
  times ["creationTimestamp", "deletionTimestamp"],
  wholes ["deletionGracePeriodSeconds", "generation"],
  [may "managedFields" (.list managedFields), may "ownerReferences" (.list ownerReference)]]

/-- An object with a specification and a status. -/
def objectWith (spec status : Form) : Form := ofGroups [
  kindFields, [may "metadata" metadata, may "spec" spec, may "status" status]]

/-! ### References -/

def localReference : Form := ofGroups [texts ["name"]]

def secretReference : Form := ofGroups [texts ["name", "namespace"]]

def objectReference : Form := ofGroups [
  texts ["apiVersion", "fieldPath", "kind", "name", "namespace", "resourceVersion", "uid"]]

def typedLocalReference : Form := ofGroups [texts ["apiGroup"], needTexts ["kind", "name"]]

def typedReference : Form := ofGroups [
  texts ["apiGroup", "namespace"], needTexts ["kind", "name"]]

/-! ### Selections -/

/-- A key, how it is compared, and values. -/
def requirement : Form := ofGroups [needTexts ["key", "operator"], textLists ["values"]]

def labelSelector : Form := ofGroups [
  textDicts ["matchLabels"], [may "matchExpressions" (.list requirement)]]

def nodeSelectorTerm : Form := ofGroups [
  [may "matchExpressions" (.list requirement), may "matchFields" (.list requirement)]]

def nodeSelector : Form := ofGroups [[need "nodeSelectorTerms" (.list nodeSelectorTerm)]]

/-! ### Answers that are no objects -/

/-- Which part of a collection a list was taken from. -/
def shardInfo : Form := ofGroups [needTexts ["selector"]]

def listMetadata : Form := ofGroups [
  texts ["continue", "resourceVersion", "selfLink"],
  wholes ["remainingItemCount"],
  [may "shardInfo" shardInfo]]

/-- A list of objects of one form. -/
def listOf (items : Form) : Form := ofGroups [
  kindFields, [need "items" (.list items), may "metadata" listMetadata]]

def statusCause : Form := ofGroups [texts ["field", "message", "reason"]]

def statusDetails : Form := ofGroups [
  texts ["group", "kind", "name", "uid"],
  wholes ["retryAfterSeconds"],
  [may "causes" (.list statusCause)]]

/-- What became of a call that gives back no object. -/
def status : Form := ofGroups [
  kindFields,
  texts ["message", "reason", "status"],
  wholes ["code"],
  [may "details" statusDetails, may "metadata" listMetadata]]

/-! ### Conditions -/

/-- A condition that an object is in, with the times that are kept with it. -/
def condition (kept : List String) : Form := ofGroups [
  needTexts ["status", "type"], texts ["message", "reason"], times kept]

end VolumeExport.Form
