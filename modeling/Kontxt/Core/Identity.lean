import Kontxt.Go.Map
import Kontxt.Go.Strings

/-!
# Workload Identity

Who a request without a bearer token comes from. In a mesh the proxy hands over
a SPIFFE principal, which names the namespace and the service account. Without
one, the source address is looked up in a cache of pods that an informer keeps.
A principal that is there is the only thing asked, even if it does not parse.

## Main definitions

* `WorkloadIdentity`: A resolved identity.
* `resolveFromPrincipal`: Parsing a SPIFFE principal.
* `IdentityResolver`: The cache of pods by address.
* `IdentityResolver.resolveFromPodIP`: Looking up an address.
* `IdentityResolver.updatePod`, `IdentityResolver.deletePod`: The informer's
  events.
* `PodEvent`, `IdentityResolver.watch`: The resolver after a sequence of them.
* `IdentityResolver.resolve`: The principal first, then the address.
-/

namespace Kontxt

namespace ExtAuth

open Go

/-- `podInfo`. -/
structure PodInfo where
  name : String
  nameSpace : String
  serviceAccount : String
  deriving Repr, DecidableEq

/-- The parts of a pod the informer's events carry. -/
structure Pod where
  name : String
  nameSpace : String
  serviceAccountName : String
  podIP : String
  deriving Repr, DecidableEq

/-- `WorkloadIdentity`. -/
structure WorkloadIdentity where
  subject : String
  nameSpace : String
  serviceAccount : String
  deriving Repr, DecidableEq

/-- The identity of a service account. -/
def serviceAccountIdentity (ns sa : String) : WorkloadIdentity where
  subject := "system:serviceaccount:" ++ ns ++ ":" ++ sa
  nameSpace := ns
  serviceAccount := sa

/-- `ResolveFromPrincipal`. -/
def resolveFromPrincipal (u : Unicode) (principal : String) : Except String WorkloadIdentity :=
  if principal = "" then .error "empty principal"
  else if hasPrefix principal "spiffe://" = false then
    .error ("principal " ++ quote u principal ++ " is not a SPIFFE URI")
  else
    -- The trust domain is whatever stands before the first slash.
    match afterFirst (trimPrefix principal "spiffe://") '/' with
    | none =>
      .error ("invalid SPIFFE URI " ++ quote u principal ++ ": no path after trust domain")
    | some path =>
      match split path '/' with
      | "ns" :: ns :: "sa" :: sa :: _ => .ok (serviceAccountIdentity ns sa)
      | _ =>
        .error ("invalid SPIFFE URI " ++ quote u principal ++
          ": expected /ns/<namespace>/sa/<sa>")

/-- `IdentityResolver`: pods by address. -/
structure IdentityResolver where
  pods : GoMap String PodInfo

namespace IdentityResolver

/-- The address without a port. A colon in front is not cut off, and neither is
    one of a bracketed address. -/
def stripPort (podIP : String) : String :=
  match beforeLast podIP ':' with
  | none => podIP
  | some host => if host = "" ∨ podIP.toList.contains ']' = true then podIP else host

/-- `ResolveFromPodIP`. -/
def resolveFromPodIP (r : IdentityResolver) (podIP : String) : Except String WorkloadIdentity :=
  if podIP = "" then .error "empty pod IP"
  else
    match r.pods.lookup (stripPort podIP) with
    | none => .error ("pod with IP " ++ stripPort podIP ++ " not found in cache")
    | some info => .ok (serviceAccountIdentity info.nameSpace info.serviceAccount)

/-- `UpdatePod`. -/
def updatePod (r : IdentityResolver) (pod : Pod) : IdentityResolver :=
  if pod.podIP = "" then r
  else
    { pods := r.pods.insert pod.podIP
        { name := pod.name
          nameSpace := pod.nameSpace
          serviceAccount := pod.serviceAccountName } }

/-- `DeletePod`. -/
def deletePod (r : IdentityResolver) (pod : Pod) : IdentityResolver :=
  if pod.podIP = "" then r else { pods := r.pods.erase pod.podIP }

/-- `NewIdentityResolver`. -/
def newIdentityResolver : IdentityResolver where
  pods := ∅

/-- `Resolve`. -/
def resolve (u : Unicode) (r : IdentityResolver) (principal sourceIP : String) :
    Except String WorkloadIdentity :=
  if principal ≠ "" then resolveFromPrincipal u principal
  else if sourceIP ≠ "" then r.resolveFromPodIP sourceIP
  else
    .error "no identity information available: both principal and source IP are empty"

end IdentityResolver

/-- A call the informer makes, with the pod as it sees it. -/
inductive PodEvent where
  | update (pod : Pod)
  | delete (pod : Pod)
  deriving Repr, DecidableEq

namespace PodEvent

def pod : PodEvent → Pod
  | .update p => p
  | .delete p => p

/-- A pod is the same pod as long as its namespace and name are. -/
def podKey (e : PodEvent) : String × String :=
  (e.pod.nameSpace, e.pod.name)

end PodEvent

namespace IdentityResolver

def handle (r : IdentityResolver) : PodEvent → IdentityResolver
  | .update pod => r.updatePod pod
  | .delete pod => r.deletePod pod

/-- The resolver after every event in turn. -/
def watch (events : List PodEvent) : IdentityResolver :=
  events.foldl handle newIdentityResolver

end IdentityResolver

end ExtAuth

end Kontxt
