import VolumeExport.Object.Form.Storage

namespace VolumeExport.Form

/-! ### Volumes of pods -/

def keyToPath : Form := ofGroups [needTexts ["key", "path"], wholes ["mode"]]

def fieldSelector : Form := ofGroups [texts ["apiVersion"], needTexts ["fieldPath"]]

def resourceSelector : Form := ofGroups [
  texts ["containerName", "divisor"], needTexts ["resource"]]

def downwardFile : Form := ofGroups [
  wholes ["mode"],
  needTexts ["path"],
  [may "fieldRef" fieldSelector, may "resourceFieldRef" resourceSelector]]

def keyFiles : List Field := [may "items" (.list keyToPath)]

def downwardFiles : List Field := [may "items" (.list downwardFile)]

def trustBundle : Form := ofGroups [
  texts ["name", "signerName"],
  truths ["optional"],
  needTexts ["path"],
  [may "labelSelector" labelSelector]]

def podCertificate : Form := ofGroups [
  texts ["certificateChainPath", "credentialBundlePath", "keyPath"],
  needTexts ["keyType", "signerName"],
  wholes ["maxExpirationSeconds"],
  textDicts ["userAnnotations"]]

def accountToken : Form := ofGroups [
  texts ["audience"], wholes ["expirationSeconds"], needTexts ["path"]]

def projection : Form := ofGroups [[
  may "clusterTrustBundle" trustBundle,
  may "configMap" (ofGroups [keyFiles, texts ["name"], truths ["optional"]]),
  may "downwardAPI" (ofGroups [downwardFiles]),
  may "podCertificate" podCertificate,
  may "secret" (ofGroups [keyFiles, texts ["name"], truths ["optional"]]),
  may "serviceAccountToken" accountToken]]

def claimTemplate : Form := ofGroups [[may "metadata" metadata, need "spec" claimSpec]]

def inlineDriver : Form := ofGroups [
  needTexts ["driver"],
  texts ["fsType"],
  truths ["readOnly"],
  textDicts ["volumeAttributes"],
  [may "nodePublishSecretRef" localReference]]

def podVolume : Form := ofGroups [
  needTexts ["name"],
  sharedSources localReference,
  [may "azureFile" (azureFile []),
    may "configMap" (ofGroups [
      wholes ["defaultMode"], keyFiles, texts ["name"], truths ["optional"]]),
    may "csi" inlineDriver,
    may "downwardAPI" (ofGroups [wholes ["defaultMode"], downwardFiles]),
    may "emptyDir" (ofGroups [texts ["medium", "sizeLimit"]]),
    may "ephemeral" (ofGroups [[may "volumeClaimTemplate" claimTemplate]]),
    may "gitRepo" (ofGroups [texts ["directory", "revision"], needTexts ["repository"]]),
    may "glusterfs" (gluster []),
    may "image" (ofGroups [texts ["pullPolicy", "reference"]]),
    may "persistentVolumeClaim" (ofGroups [needTexts ["claimName"], truths ["readOnly"]]),
    may "projected" (ofGroups [wholes ["defaultMode"], [may "sources" (.list projection)]]),
    may "secret" (ofGroups [
      wholes ["defaultMode"], keyFiles, texts ["secretName"], truths ["optional"]]),
    may "storageos" (storageOS localReference)]]

/-! ### Containers -/

def keySelector : Form := ofGroups [needTexts ["key"], texts ["name"], truths ["optional"]]

def fileKeySelector : Form := ofGroups [
  needTexts ["key", "path", "volumeName"], truths ["optional"]]

def variableSource : Form := ofGroups [[
  may "configMapKeyRef" keySelector,
  may "fieldRef" fieldSelector,
  may "fileKeyRef" fileKeySelector,
  may "resourceFieldRef" resourceSelector,
  may "secretKeyRef" keySelector]]

def envVariable : Form := ofGroups [
  needTexts ["name"], texts ["value"], [may "valueFrom" variableSource]]

def optionalReference : Form := ofGroups [texts ["name"], truths ["optional"]]

def envSource : Form := ofGroups [
  texts ["prefix"],
  [may "configMapRef" optionalReference, may "secretRef" optionalReference]]

def command : Form := ofGroups [textLists ["command"]]

def header : Form := ofGroups [needTexts ["name", "value"]]

def httpRequest : Form := ofGroups [
  texts ["host", "path", "scheme"], [may "httpHeaders" (.list header), need "port" .any]]

def socket : Form := ofGroups [texts ["host"], [need "port" .any]]

def hookAction : Form := ofGroups [[
  may "exec" command,
  may "httpGet" httpRequest,
  may "sleep" (ofGroups [[need "seconds" .whole]]),
  may "tcpSocket" socket]]

def lifecycle : Form := ofGroups [
  texts ["stopSignal"], [may "postStart" hookAction, may "preStop" hookAction]]

def probe : Form := ofGroups [
  wholes ["failureThreshold", "initialDelaySeconds", "periodSeconds", "successThreshold",
    "terminationGracePeriodSeconds", "timeoutSeconds"],
  [may "exec" command,
    may "grpc" (ofGroups [[need "port" .whole], texts ["service"]]),
    may "httpGet" httpRequest,
    may "tcpSocket" socket]]

def containerPort : Form := ofGroups [
  texts ["hostIP", "name", "protocol"], wholes ["hostPort"], [need "containerPort" .whole]]

def resourceRequirements : Form := ofGroups [
  textDicts ["limits", "requests"],
  [may "claims" (.list (ofGroups [needTexts ["name"], texts ["request"]]))]]

def profile : Form := ofGroups [texts ["localhostProfile"], needTexts ["type"]]

def linuxOptions : Form := ofGroups [texts ["level", "role", "type", "user"]]

def windowsOptions : Form := ofGroups [
  texts ["gmsaCredentialSpec", "gmsaCredentialSpecName", "runAsUserName"],
  truths ["hostProcess"]]

/-- What the security of pods and that of containers have in common. -/
def securityFields : List Field :=
  wholes ["runAsGroup", "runAsUser"] ++ truths ["runAsNonRoot"] ++
    [may "appArmorProfile" profile, may "seLinuxOptions" linuxOptions,
      may "seccompProfile" profile, may "windowsOptions" windowsOptions]

def containerSecurity : Form := ofGroups [
  securityFields,
  truths ["allowPrivilegeEscalation", "privileged", "readOnlyRootFilesystem"],
  texts ["procMount"],
  [may "capabilities" (ofGroups [textLists ["add", "drop"]])]]

def restartRule : Form := ofGroups [
  needTexts ["action"],
  [may "exitCodes" (ofGroups [needTexts ["operator"], [may "values" (.list .whole)]])]]

def mount : Form := ofGroups [
  needTexts ["mountPath", "name"],
  texts ["mountPropagation", "recursiveReadOnly", "subPath", "subPathExpr"],
  truths ["readOnly"]]

def container (more : List Field) : Form := ofGroups [
  needTexts ["name"],
  textLists ["args", "command"],
  texts ["image", "imagePullPolicy", "restartPolicy", "terminationMessagePath",
    "terminationMessagePolicy", "workingDir"],
  truths ["stdin", "stdinOnce", "tty"],
  [may "env" (.list envVariable),
    may "envFrom" (.list envSource),
    may "lifecycle" lifecycle,
    may "livenessProbe" probe,
    may "ports" (.list containerPort),
    may "readinessProbe" probe,
    may "resizePolicy" (.list (ofGroups [needTexts ["resourceName", "restartPolicy"]])),
    may "resources" resourceRequirements,
    may "restartPolicyRules" (.list restartRule),
    may "securityContext" containerSecurity,
    may "startupProbe" probe,
    may "volumeDevices" (.list (ofGroups [needTexts ["devicePath", "name"]])),
    may "volumeMounts" (.list mount)],
  more]

/-! ### Pods -/

def podAffinityTerm : Form := ofGroups [
  textLists ["matchLabelKeys", "mismatchLabelKeys", "namespaces"],
  needTexts ["topologyKey"],
  [may "labelSelector" labelSelector, may "namespaceSelector" labelSelector]]

/-- A term with its weight. -/
def weighted (name : String) (term : Form) : Form :=
  ofGroups [[need name term, need "weight" .whole]]

def nodeAffinity : Form := ofGroups [[
  may "preferredDuringSchedulingIgnoredDuringExecution"
    (.list (weighted "preference" nodeSelectorTerm)),
  may "requiredDuringSchedulingIgnoredDuringExecution" nodeSelector]]

def podAffinity : Form := ofGroups [[
  may "preferredDuringSchedulingIgnoredDuringExecution"
    (.list (weighted "podAffinityTerm" podAffinityTerm)),
  may "requiredDuringSchedulingIgnoredDuringExecution" (.list podAffinityTerm)]]

def affinity : Form := ofGroups [[
  may "nodeAffinity" nodeAffinity,
  may "podAffinity" podAffinity,
  may "podAntiAffinity" podAffinity]]

def dnsConfig : Form := ofGroups [
  textLists ["nameservers", "searches"],
  [may "options" (.list (ofGroups [texts ["name", "value"]]))]]

def toleration : Form := ofGroups [
  texts ["effect", "key", "operator", "value"], wholes ["tolerationSeconds"]]

def spreadConstraint : Form := ofGroups [
  textLists ["matchLabelKeys"],
  wholes ["minDomains"],
  texts ["nodeAffinityPolicy", "nodeTaintsPolicy"],
  needTexts ["topologyKey", "whenUnsatisfiable"],
  [may "labelSelector" labelSelector, need "maxSkew" .whole]]

def podSecurity : Form := ofGroups [
  securityFields,
  wholes ["fsGroup"],
  texts ["fsGroupChangePolicy", "seLinuxChangePolicy", "supplementalGroupsPolicy"],
  [may "supplementalGroups" (.list .whole), may "sysctls" (.list header)]]

def podResourceClaim : Form := ofGroups [
  needTexts ["name"], texts ["resourceClaimName", "resourceClaimTemplateName"]]

def podSpec : Form := ofGroups [
  wholes ["activeDeadlineSeconds", "priority", "terminationGracePeriodSeconds"],
  truths ["automountServiceAccountToken", "enableServiceLinks", "hostIPC", "hostNetwork",
    "hostPID", "hostUsers", "setHostnameAsFQDN", "shareProcessNamespace"],
  texts ["dnsPolicy", "hostname", "hostnameOverride", "nodeName", "preemptionPolicy",
    "priorityClassName", "restartPolicy", "runtimeClassName", "schedulerName",
    "serviceAccount", "serviceAccountName", "subdomain"],
  textDicts ["nodeSelector", "overhead"],
  [may "affinity" affinity,
    need "containers" (.list (container [])),
    may "dnsConfig" dnsConfig,
    may "ephemeralContainers" (.list (container (texts ["targetContainerName"]))),
    may "hostAliases" (.list (ofGroups [textLists ["hostnames"], needTexts ["ip"]])),
    may "imagePullSecrets" (.list localReference),
    may "initContainers" (.list (container [])),
    may "os" (ofGroups [needTexts ["name"]]),
    may "readinessGates" (.list (ofGroups [needTexts ["conditionType"]])),
    may "resourceClaims" (.list podResourceClaim),
    may "resources" resourceRequirements,
    may "schedulingGates" (.list (ofGroups [needTexts ["name"]])),
    may "schedulingGroup" (ofGroups [texts ["podGroupName"]]),
    may "securityContext" podSecurity,
    may "tolerations" (.list toleration),
    may "topologySpreadConstraints" (.list spreadConstraint),
    may "volumes" (.list podVolume)]]

def podTemplate : Form := ofGroups [[may "metadata" metadata, may "spec" podSpec]]

/-! ### Deployments -/

def strategy : Form := ofGroups [
  texts ["type"],
  [may "rollingUpdate" (ofGroups [[may "maxSurge" .any, may "maxUnavailable" .any]])]]

def serverSpec : Form := ofGroups [
  wholes ["minReadySeconds", "progressDeadlineSeconds", "replicas", "revisionHistoryLimit"],
  truths ["paused"],
  [need "selector" labelSelector, may "strategy" strategy, need "template" podTemplate]]

def serverStatus : Form := ofGroups [
  wholes ["availableReplicas", "collisionCount", "observedGeneration", "readyReplicas",
    "replicas", "terminatingReplicas", "unavailableReplicas", "updatedReplicas"],
  [may "conditions" (.list (condition ["lastTransitionTime", "lastUpdateTime"]))]]

def server : Form := objectWith serverSpec serverStatus

end VolumeExport.Form
