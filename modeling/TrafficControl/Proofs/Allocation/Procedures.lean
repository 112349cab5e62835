import TrafficControl.Proofs.Allocation.Returning

namespace TrafficControl

/-- What a client calls, as it is carried out. What it has written stays written, even if it fails
    later on. -/
abbrev Procedure := ExceptT Refusal (StateM Scheduler)

/-- A call that succeeds leaves its result behind, and one that fails leaves all as it was. -/
def Scheduler.allOrNothing (s : Scheduler) :
    Except Refusal Scheduler → Except Refusal Unit × Scheduler
  | .ok t => (.ok (), t)
  | .error refusal => (.error refusal, s)

namespace Procedure

variable {α β : Type}

def carryOut (procedure : Procedure α) (s : Scheduler) : Except Refusal α × Scheduler :=
  procedure.run.run s

def require (holds : Bool) (refusal : Refusal) : Procedure Unit :=
  if holds then pure () else throw refusal

def revise (change : Occupancy → Occupancy) : Procedure Unit :=
  modify fun s => { s with occupancy := change s.occupancy }

def vacate (freed : ResourceSet) : Procedure Unit :=
  forM freed.toList fun r => revise fun o => { o with holders := o.holders.erase r }

def makeKnown (client : ClientId) (freed : ResourceSet) : Procedure Unit :=
  if freed.isEmpty then pure ()
  else do
    modify (·.tell (.released client freed))
    modify (·.push (.released freed) client)

def register (client : ClientId) (handle : Handle) : Procedure Unit := do
  require (!(← get).occupancy.claims.contains client) (.duplicateClient client)
  revise fun o => { o with claims := o.claims.insert client [] }
  revise fun o => { o with allocated := o.allocated.insert client ∅ }
  modify fun s => { s with clients := s.clients.insert client handle }

def unregister (client : ClientId) : Procedure Unit := do
  require ((← get).occupancy.claims.contains client) (.unknownClient client)
  revise fun o => { o with claims := o.claims.erase client }
  revise fun o => { o with deferred := o.deferred.erase client }
  let held := ((← get).occupancy.allocated.get? client).getD ∅
  revise fun o => { o with allocated := o.allocated.erase client }
  let reservation := (← get).occupancy.reservations.get? client
  revise fun o => { o with reservations := o.reservations.erase client }
  let freed := match reservation with
    | some reservation => held.union reservation.expanded
    | none => held
  vacate freed
  modify fun s => { s with clients := s.clients.erase client }
  modify fun s => { s with agenda := s.agenda.purge client }
  makeKnown client freed

def examine (p : Plant) (client : ClientId) (set : ResourceSet) : Procedure Unit := do
  require (!set.isEmpty) (.emptyResourceSet client)
  match p.expand set with
  | .error unknown => throw (.unknownResource unknown)
  | .ok _ => pure ()

def claim (client : ClientId) (claims : List ResourceSet) : Procedure Unit := do
  let p := (← get).plant.current
  forM claims (examine p client)
  require ((← get).occupancy.registered client) (.unknownClient client)
  revise (·.setClaims client claims)
  match (← get).occupancy.staleReservation? client with
  | none => modify (·.tell (.claimed client claims))
  | some cancelled =>
    revise fun o => { o with reservations := o.reservations.erase client }
    vacate cancelled.expanded
    revise (·.defer client cancelled.request)
    modify (·.tell (.claimed client claims))
    modify (·.push (.released cancelled.expanded) client)

def allocate (client : ClientId) (request : ResourceSet) : Procedure Unit := do
  require (!request.isEmpty) (.emptyResourceSet client)
  require ((← get).occupancy.registered client) (.unknownClient client)
  require ((← get).occupancy.claimHead? client = some request) (.notClaimHead client request)
  modify (·.push (.allocate request) client)

def release (client : ClientId) (resources : ResourceSet) : Procedure Unit := do
  require (!resources.isEmpty) (.emptyResourceSet client)
  let freed := (← get).plant.current.givenUp resources
  match (← get).occupancy.allocated.get? client with
  | none => throw (.unknownClient client)
  | some held =>
    require (freed.subset held) (.notAllocated client resources)
    revise fun o => { o with allocated := o.allocated.insert client (held.diff freed) }
    vacate freed
    modify (·.tell (.released client freed))
    modify (·.push (.released freed) client)

section CarryOut

variable (s : Scheduler)

@[simp] theorem carryOut_pure (a : α) : (pure a : Procedure α).carryOut s = (.ok a, s) := rfl

@[simp] theorem carryOut_throw (refusal : Refusal) :
    (throw refusal : Procedure α).carryOut s = (.error refusal, s) := rfl

@[simp] theorem carryOut_get : (get : Procedure Scheduler).carryOut s = (.ok s, s) := rfl

@[simp] theorem carryOut_modify (change : Scheduler → Scheduler) :
    (modify change : Procedure Unit).carryOut s = (.ok (), change s) := rfl

@[simp] theorem carryOut_bind (procedure : Procedure α) (rest : α → Procedure β) :
    (procedure >>= rest).carryOut s = match procedure.carryOut s with
      | (.ok a, t) => (rest a).carryOut t
      | (.error refusal, t) => (.error refusal, t) := by
  change ExceptT.bindCont rest (procedure.carryOut s).1 (procedure.carryOut s).2 = _
  rcases procedure.carryOut s with ⟨refusal | a, t⟩ <;> rfl

@[simp] theorem carryOut_require (holds : Bool) (refusal : Refusal) :
    (require holds refusal).carryOut s = (if holds then .ok () else .error refusal, s) := by
  cases holds <;> rfl

@[simp] theorem carryOut_revise (change : Occupancy → Occupancy) :
    (revise change).carryOut s = (.ok (), { s with occupancy := change s.occupancy }) := rfl

theorem carryOut_eachHolder (l : List Resource) :
    (forM l fun r => revise fun o => { o with holders := o.holders.erase r }).carryOut s =
      (.ok (), { s with occupancy := { s.occupancy with
        holders := l.foldl Table.erase s.occupancy.holders } }) := by
  induction l generalizing s with
  | nil => rfl
  | cons r rest ih =>
    rw [List.forM_cons, carryOut_bind, carryOut_revise]
    exact ih _

theorem get?_foldl_erase {l : List Resource} {holders : Table Resource ClientId} {r : Resource} :
    (l.foldl Table.erase holders).get? r = if r ∈ l then none else holders.get? r := by
  induction l generalizing holders with
  | nil => simp
  | cons first rest ih =>
    rw [List.foldl_cons, ih, Table.get?_erase]
    by_cases here : r = first <;> simp [here]

@[simp] theorem carryOut_vacate (freed : ResourceSet) : (vacate freed).carryOut s =
    (.ok (), { s with occupancy := { s.occupancy with
      holders := Occupancy.vacate s.occupancy.holders freed } }) := by
  have cleared : freed.toList.foldl Table.erase s.occupancy.holders =
      Occupancy.vacate s.occupancy.holders freed := by
    apply Table.ext
    intro r
    rw [Occupancy.get?_vacate, get?_foldl_erase]
    simp only [OrderedSet.mem_def]
  rw [vacate, carryOut_eachHolder, cleared]

@[simp] theorem carryOut_makeKnown (client : ClientId) (freed : ResourceSet) :
    (makeKnown client freed).carryOut s = (.ok (), if freed.isEmpty then s
      else (s.tell (.released client freed)).push (.released freed) client) := by
  unfold makeKnown
  split <;> rfl

end CarryOut

theorem carryOut_register (s : Scheduler) (client : ClientId) (handle : Handle) :
    (register client handle).carryOut s = s.allOrNothing (s.register client handle) := by
  cases known : s.occupancy.claims.contains client <;>
    simp [register, Scheduler.register, Occupancy.register?, Occupancy.registered, known,
      Scheduler.allOrNothing]

theorem carryOut_unregister (s : Scheduler) (client : ClientId) :
    (unregister client).carryOut s = s.allOrNothing (s.unregister client) := by
  cases known : s.occupancy.claims.contains client <;>
    cases reserved : s.occupancy.reservations.get? client <;>
    simp [unregister, Scheduler.unregister, Occupancy.unregister?, Occupancy.registered, known,
      reserved, Scheduler.allOrNothing]

theorem carryOut_examine (s : Scheduler) (p : Plant) (client : ClientId) (set : ResourceSet) :
    (examine p client set).carryOut s =
      (match Scheduler.claimFault? p client set with
        | some refusal => .error refusal
        | none => .ok (), s) := by
  cases empty : set.isEmpty <;> cases expansion : p.expand set <;>
    simp [examine, Scheduler.claimFault?, empty, expansion]

theorem carryOut_examineAll (s : Scheduler) (p : Plant) (client : ClientId)
    (claims : List ResourceSet) : (forM claims (examine p client)).carryOut s =
      (match claims.findSome? (Scheduler.claimFault? p client) with
        | some refusal => .error refusal
        | none => .ok (), s) := by
  induction claims with
  | nil => rfl
  | cons set rest ih =>
    rw [List.forM_cons, carryOut_bind, carryOut_examine, List.findSome?_cons]
    cases Scheduler.claimFault? p client set with
    | some refusal => rfl
    | none => exact ih

theorem carryOut_claim (s : Scheduler) (client : ClientId) (claims : List ResourceSet) :
    (claim client claims).carryOut s = s.allOrNothing (s.claim client claims) := by
  rw [claim, Scheduler.claim, carryOut_bind, carryOut_get]
  simp only [carryOut_bind, carryOut_examineAll]
  cases claims.findSome? (Scheduler.claimFault? s.plant.current client) with
  | some refusal => rfl
  | none =>
    cases known : s.occupancy.registered client with
    | false => simp [known, Scheduler.allOrNothing]
    | true =>
      simp only [carryOut_require, known, if_true, carryOut_revise, carryOut_get,
        Occupancy.cancelStale]
      cases (s.occupancy.setClaims client claims).staleReservation? client with
      | none => rfl
      | some cancelled =>
        simp only [carryOut_bind, carryOut_revise, carryOut_vacate, carryOut_modify]
        rfl

theorem carryOut_allocate (s : Scheduler) (client : ClientId) (request : ResourceSet) :
    (allocate client request).carryOut s = s.allOrNothing (s.allocate client request) := by
  cases empty : request.isEmpty <;> cases known : s.occupancy.registered client <;>
    by_cases head : s.occupancy.claimHead? client = some request <;>
    simp [allocate, Scheduler.allocate, empty, known, head, Scheduler.allOrNothing]

theorem carryOut_release (s : Scheduler) (client : ClientId) (resources : ResourceSet) :
    (release client resources).carryOut s = s.allOrNothing (s.release client resources) := by
  cases empty : resources.isEmpty with
  | true => simp [release, Scheduler.release, empty, Scheduler.allOrNothing]
  | false =>
    simp only [Scheduler.release, Occupancy.release_eq]
    cases present : s.occupancy.allocated.get? client with
    | none => simp [release, empty, present, Scheduler.allOrNothing]
    | some held =>
      cases inside : (s.plant.current.givenUp resources).subset held <;>
        simp [release, empty, present, inside, Scheduler.allOrNothing]

end Procedure

def Action.procedure? : Action → Option (Procedure Unit)
  | .register client handle => some (.register client handle)
  | .unregister client => some (.unregister client)
  | .claim client claims => some (.claim client claims)
  | .allocate client request => some (.allocate client request)
  | .release client resources => some (.release client resources)
  | _ => none

end TrafficControl
