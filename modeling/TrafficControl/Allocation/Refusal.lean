import TrafficControl.Resource

namespace TrafficControl

/-- Why a call to the scheduler is refused. That a resource is taken is no reason: the request then
    waits. -/
inductive Refusal where
  | unknownClient (client : ClientId)
  | duplicateClient (client : ClientId)
  | emptyResourceSet (client : ClientId)
  | unknownResource (resource : Resource)
  | notClaimHead (client : ClientId) (requested : ResourceSet)
  | notAllocated (client : ClientId) (released : ResourceSet)
  | alreadyRunning
deriving DecidableEq

def Refusal.message : Refusal → String
  | unknownClient client => "client " ++ toString client ++ " is not registered"
  | duplicateClient client => "client " ++ toString client ++ " is already registered"
  | emptyResourceSet client => "client " ++ toString client ++ " passed an empty resource set"
  | unknownResource resource =>
    "resource " ++ toString resource ++ " is not part of the plant model"
  | notClaimHead client requested =>
    "client " ++ toString client ++ " requested " ++ requested.display ++
      ", which is not the head of its claim queue"
  | notAllocated client released =>
    "client " ++ toString client ++ " released " ++ released.display ++ ", which it does not hold"
  | alreadyRunning => "allocation worker is already running"

end TrafficControl
