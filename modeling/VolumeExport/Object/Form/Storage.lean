import VolumeExport.Object.Form.Common

namespace VolumeExport.Form

/-! ### Sources of volumes -/

def elasticBlockStore : Form := ofGroups [
  texts ["fsType"], wholes ["partition"], truths ["readOnly"], needTexts ["volumeID"]]

def azureDisk : Form := ofGroups [
  texts ["cachingMode", "fsType", "kind"],
  needTexts ["diskName", "diskURI"],
  truths ["readOnly"]]

def azureFile (more : List Field) : Form := ofGroups [
  needTexts ["secretName", "shareName"], truths ["readOnly"], more]

def cephFilesystem (secret : Form) : Form := ofGroups [
  texts ["path", "secretFile", "user"],
  truths ["readOnly"],
  [need "monitors" (.list .text), may "secretRef" secret]]

def cinder (secret : Form) : Form := ofGroups [
  texts ["fsType"], truths ["readOnly"], needTexts ["volumeID"], [may "secretRef" secret]]

def fibreChannel : Form := ofGroups [
  texts ["fsType"], wholes ["lun"], truths ["readOnly"], textLists ["targetWWNs", "wwids"]]

def flexVolume (secret : Form) : Form := ofGroups [
  texts ["fsType"],
  needTexts ["driver"],
  truths ["readOnly"],
  textDicts ["options"],
  [may "secretRef" secret]]

def flocker : Form := ofGroups [texts ["datasetName", "datasetUUID"]]

def persistentDisk : Form := ofGroups [
  texts ["fsType"], needTexts ["pdName"], wholes ["partition"], truths ["readOnly"]]

def gluster (more : List Field) : Form := ofGroups [
  needTexts ["endpoints", "path"], truths ["readOnly"], more]

def hostPath : Form := ofGroups [needTexts ["path"], texts ["type"]]

def iscsi (secret : Form) : Form := ofGroups [
  texts ["fsType", "initiatorName", "iscsiInterface"],
  needTexts ["iqn", "targetPortal"],
  truths ["chapAuthDiscovery", "chapAuthSession", "readOnly"],
  textLists ["portals"],
  [need "lun" .whole, may "secretRef" secret]]

def localPath : Form := ofGroups [texts ["fsType"], needTexts ["path"]]

def networkFilesystem : Form := ofGroups [needTexts ["path", "server"], truths ["readOnly"]]

def photonDisk : Form := ofGroups [texts ["fsType"], needTexts ["pdID"]]

def portworx : Form := ofGroups [texts ["fsType"], truths ["readOnly"], needTexts ["volumeID"]]

def quobyte : Form := ofGroups [
  texts ["group", "tenant", "user"], needTexts ["registry", "volume"], truths ["readOnly"]]

def radosBlock (secret : Form) : Form := ofGroups [
  texts ["fsType", "keyring", "pool", "user"],
  needTexts ["image"],
  truths ["readOnly"],
  [need "monitors" (.list .text), may "secretRef" secret]]

def scaleIO (secret : Form) : Form := ofGroups [
  texts ["fsType", "protectionDomain", "storageMode", "storagePool", "volumeName"],
  needTexts ["gateway", "system"],
  truths ["readOnly", "sslEnabled"],
  [need "secretRef" secret]]

def storageOS (secret : Form) : Form := ofGroups [
  texts ["fsType", "volumeName", "volumeNamespace"],
  truths ["readOnly"],
  [may "secretRef" secret]]

def vsphere : Form := ofGroups [
  texts ["fsType", "storagePolicyID", "storagePolicyName"], needTexts ["volumePath"]]

def volumeDriver : Form := ofGroups [
  texts ["fsType"],
  needTexts ["driver", "volumeHandle"],
  truths ["readOnly"],
  textDicts ["volumeAttributes"],
  ["controllerExpandSecretRef", "controllerPublishSecretRef", "nodeExpandSecretRef",
    "nodePublishSecretRef", "nodeStageSecretRef"].map (may · secretReference)]

/-- The sources that volumes and pods share, given the form of references to secrets. -/
def sharedSources (secret : Form) : List Field := [
  may "awsElasticBlockStore" elasticBlockStore,
  may "azureDisk" azureDisk,
  may "cephfs" (cephFilesystem secret),
  may "cinder" (cinder secret),
  may "fc" fibreChannel,
  may "flexVolume" (flexVolume secret),
  may "flocker" flocker,
  may "gcePersistentDisk" persistentDisk,
  may "hostPath" hostPath,
  may "iscsi" (iscsi secret),
  may "nfs" networkFilesystem,
  may "photonPersistentDisk" photonDisk,
  may "portworxVolume" portworx,
  may "quobyte" quobyte,
  may "rbd" (radosBlock secret),
  may "scaleIO" (scaleIO secret),
  may "vsphereVolume" vsphere]

/-! ### Claims -/

def volumeResources : Form := ofGroups [textDicts ["limits", "requests"]]

def claimSpec : Form := ofGroups [
  textLists ["accessModes"],
  texts ["storageClassName", "volumeAttributesClassName", "volumeMode", "volumeName"],
  [may "dataSource" typedLocalReference, may "dataSourceRef" typedReference,
    may "resources" volumeResources, may "selector" labelSelector]]

def modifyVolumeStatus : Form := ofGroups [
  needTexts ["status"], texts ["targetVolumeAttributesClassName"]]

def claimStatus : Form := ofGroups [
  textLists ["accessModes"],
  textDicts ["allocatedResourceStatuses", "allocatedResources", "capacity"],
  texts ["currentVolumeAttributesClassName", "phase"],
  [may "conditions" (.list (condition ["lastProbeTime", "lastTransitionTime"])),
    may "modifyVolumeStatus" modifyVolumeStatus]]

def claim : Form := objectWith claimSpec claimStatus

/-! ### Volumes -/

def volumeSpec : Form := ofGroups [
  textLists ["accessModes", "mountOptions"],
  textDicts ["capacity"],
  texts ["persistentVolumeReclaimPolicy", "storageClassName", "volumeAttributesClassName",
    "volumeMode"],
  sharedSources secretReference,
  [may "azureFile" (azureFile (texts ["secretNamespace"])),
    may "claimRef" objectReference,
    may "csi" volumeDriver,
    may "glusterfs" (gluster (texts ["endpointsNamespace"])),
    may "local" localPath,
    may "nodeAffinity" (ofGroups [[may "required" nodeSelector]]),
    may "storageos" (storageOS objectReference)]]

def volumeStatus : Form := ofGroups [
  texts ["message", "phase", "reason"], times ["lastPhaseTransitionTime"]]

def volume : Form := objectWith volumeSpec volumeStatus

/-! ### Storage classes -/

def topologyRequirement : Form := ofGroups [
  needTexts ["key"], [need "values" (.list .text)]]

def topologyTerm : Form := ofGroups [
  [may "matchLabelExpressions" (.list topologyRequirement)]]

def storageClass : Form := ofGroups [
  kindFields,
  truths ["allowVolumeExpansion"],
  textLists ["mountOptions"],
  textDicts ["parameters"],
  needTexts ["provisioner"],
  texts ["reclaimPolicy", "volumeBindingMode"],
  [may "metadata" metadata, may "allowedTopologies" (.list topologyTerm)]]

end VolumeExport.Form
