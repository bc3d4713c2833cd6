import VolumeExport.Object.Form.Common

namespace VolumeExport.Form

/-! ### Services -/

def servicePort : Form := ofGroups [
  texts ["appProtocol", "name", "protocol"],
  wholes ["nodePort"],
  [need "port" .whole, may "targetPort" .any]]

def sessionAffinity : Form := ofGroups [
  [may "clientIP" (ofGroups [wholes ["timeoutSeconds"]])]]

def serviceSpec : Form := ofGroups [
  truths ["allocateLoadBalancerNodePorts", "publishNotReadyAddresses"],
  texts ["clusterIP", "externalName", "externalTrafficPolicy", "internalTrafficPolicy",
    "ipFamilyPolicy", "loadBalancerClass", "loadBalancerIP", "sessionAffinity",
    "trafficDistribution", "type"],
  textLists ["clusterIPs", "externalIPs", "ipFamilies", "loadBalancerSourceRanges"],
  wholes ["healthCheckNodePort"],
  textDicts ["selector"],
  [may "ports" (.list servicePort), may "sessionAffinityConfig" sessionAffinity]]

def portStatus : Form := ofGroups [
  texts ["error"], needTexts ["protocol"], [need "port" .whole]]

def ingress : Form := ofGroups [
  texts ["hostname", "ip", "ipMode"], [may "ports" (.list portStatus)]]

def serviceCondition : Form := ofGroups [
  needTexts ["message", "reason", "status", "type"],
  wholes ["observedGeneration"],
  [need "lastTransitionTime" .time]]

def serviceStatus : Form := ofGroups [[
  may "conditions" (.list serviceCondition),
  may "loadBalancer" (ofGroups [[may "ingress" (.list ingress)]])]]

def service : Form := objectWith serviceSpec serviceStatus

/-! ### Nodes -/

def configMapSource : Form := ofGroups [
  needTexts ["kubeletConfigKey", "name", "namespace"], texts ["resourceVersion", "uid"]]

def configSource : Form := ofGroups [[may "configMap" configMapSource]]

def taint : Form := ofGroups [
  needTexts ["effect", "key"], texts ["value"], times ["timeAdded"]]

def nodeSpec : Form := ofGroups [
  texts ["externalID", "podCIDR", "providerID"],
  textLists ["podCIDRs"],
  truths ["unschedulable"],
  [may "configSource" configSource, may "taints" (.list taint)]]

def nodeConfigStatus : Form := ofGroups [
  texts ["error"],
  ["active", "assigned", "lastKnownGood"].map (may · configSource)]

def nodeInfo : Form := ofGroups [
  needTexts ["architecture", "bootID", "containerRuntimeVersion", "kernelVersion",
    "kubeProxyVersion", "kubeletVersion", "machineID", "operatingSystem", "osImage",
    "systemUUID"],
  [may "swap" (ofGroups [wholes ["capacity"]])]]

def runtimeHandler : Form := ofGroups [
  texts ["name"],
  [may "features" (ofGroups [truths ["recursiveReadOnlyMounts", "userNamespaces"]])]]

def nodeStatus : Form := ofGroups [
  textDicts ["allocatable", "capacity"],
  texts ["phase"],
  textLists ["declaredFeatures", "volumesInUse"],
  [may "addresses" (.list (ofGroups [needTexts ["address", "type"]])),
    may "conditions" (.list (condition ["lastHeartbeatTime", "lastTransitionTime"])),
    may "config" nodeConfigStatus,
    may "daemonEndpoints" (ofGroups [
      [may "kubeletEndpoint" (ofGroups [[need "Port" .whole]])]]),
    may "features" (ofGroups [truths ["supplementalGroupsPolicy"]]),
    may "images" (.list (ofGroups [textLists ["names"], wholes ["sizeBytes"]])),
    may "nodeInfo" nodeInfo,
    may "runtimeHandlers" (.list runtimeHandler),
    may "volumesAttached" (.list (ofGroups [needTexts ["devicePath", "name"]]))]]

def node : Form := objectWith nodeSpec nodeStatus

end VolumeExport.Form
