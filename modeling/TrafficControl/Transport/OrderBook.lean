import TrafficControl.Table
import TrafficControl.Transport.Splice

namespace TrafficControl

/-- How an order book takes new drive orders for an order. -/
inductive Bookkeeping where
  | keeps
  | loses (updated : List String)
  | refuses
deriving DecidableEq, Repr

namespace Bookkeeping

def hides (name : String) : Bookkeeping → Bool
  | loses updated => name ∈ updated
  | _ => false

def noteUpdate (name : String) : Bookkeeping → Bookkeeping
  | loses updated => loses (name :: updated)
  | other => other

end Bookkeeping

structure OrderBook where
  orders : Table String TransportOrder := ∅
  bookkeeping : Bookkeeping := .keeps
deriving DecidableEq

namespace OrderBook

def order? (b : OrderBook) (name : String) : Option TransportOrder :=
  if b.bookkeeping.hides name then none else b.orders.get? name

def insert (b : OrderBook) (order : TransportOrder) : OrderBook :=
  { b with orders := b.orders.insert order.name order }

def advance (b : OrderBook) (name : String) : OrderBook :=
  match b.order? name with
  | none => b
  | some order => b.insert order.advance

def update (b : OrderBook) (name : String) (driveOrders : List DriveOrder) :
    Except RerouteFault OrderBook :=
  if b.bookkeeping = .refuses then .error (.unknownTransportOrder ("refused " ++ name))
  else
    match b.orders.get? name with
    | none => .error (.unknownTransportOrder name)
    | some order => .ok { b with
        orders := b.orders.insert name { order with driveOrders }
        bookkeeping := b.bookkeeping.noteUpdate name }

end OrderBook

end TrafficControl
