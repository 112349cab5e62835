import TrafficControl.Allocation.Occupancy

namespace TrafficControl

/-- Stands for what a client registered with and is called back on. A client that registers anew
    brings a new one. -/
abbrev Handle := Nat

abbrev HookId := Nat

inductive Event where
  | claimed (client : ClientId) (claims : List ResourceSet)
  | allocated (client : ClientId) (request : ResourceSet)
  | deferred (client : ClientId) (request : ResourceSet)
  | failed (client : ClientId) (request : ResourceSet)
  | released (client : ClientId) (resources : ResourceSet)
deriving DecidableEq

/-- What the scheduler says to or asks of a hook or a client. Until it is answered the work on
    commands rests. -/
inductive Call where
  | prepare (hook : HookId) (client : ClientId) (request : ResourceSet)
  | hookReady (hook : HookId) (client : ClientId) (request : ResourceSet)
  | clientReady (handle : Handle) (client : ClientId) (request : ResourceSet)
  | granted (handle : Handle) (client : ClientId) (request : ResourceSet)
  | denied (handle : Handle) (client : ClientId) (request : ResourceSet)
deriving DecidableEq

inductive Signal where
  | told (event : Event)
  | called (call : Call)
deriving DecidableEq

inductive Notice where
  | allocated (client : ClientId) (request : ResourceSet)
  | failed (client : ClientId) (request : ResourceSet)
  | deferred (client : ClientId) (request : ResourceSet)
  | prepare (client : ClientId) (request : ResourceSet)
deriving DecidableEq

structure Check where
  client : ClientId
  reservation : Reservation
  handle : Option Handle
deriving DecidableEq

/-- What the work on commands is waiting for, and what it goes on with. -/
inductive Phase where
  | idle
  | asking (check : Check) (hook : HookId) (later : List HookId)
  | confirming (check : Check) (handle : Handle) (hooksReady : Bool)
  | preparing (client : ClientId) (request : ResourceSet) (hook : HookId) (later : List HookId)
      (notices : List Notice)
  | granting (client : ClientId) (handle : Handle) (request : ResourceSet) (notices : List Notice)
  | denying (client : ClientId) (handle : Handle) (request : ResourceSet) (notices : List Notice)
deriving DecidableEq

namespace Phase

instance : Inhabited Phase := ⟨idle⟩

def call? : Phase → Option Call
  | idle => none
  | asking check hook _ => some (.hookReady hook check.client check.reservation.request)
  | confirming check handle _ => some (.clientReady handle check.client check.reservation.request)
  | preparing client request hook _ _ => some (.prepare hook client request)
  | granting client handle request _ => some (.granted handle client request)
  | denying client handle request _ => some (.denied handle client request)

end Phase

end TrafficControl
