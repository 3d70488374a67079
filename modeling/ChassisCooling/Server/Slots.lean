/-! # Slots for connections

Only so many connections are served at once. Each has a task of its own, which takes a slot when the
connection is made and gives it back when it returns.
-/

namespace ChassisCooling.Server

/-- The most connections that are served at once. -/
def maxConnections : Nat := 32

/-- The connections that count as being served. -/
structure Slots where
  taken : Nat
deriving DecidableEq, Repr

namespace Slots

/-- A new connection takes a slot; nothing when there is none left. -/
def take? (s : Slots) : Option Slots :=
  if s.taken < maxConnections then some ⟨s.taken + 1⟩ else none

/-- A connection that ends gives its slot back. One that breaks does not. -/
def release (s : Slots) (broken : Bool) : Slots :=
  if broken then s else ⟨s.taken - 1⟩

end Slots

/-- Slots beside the tasks that really are at work. -/
structure Traffic where
  slots : Slots
  alive : Nat
deriving DecidableEq, Repr

/-- What happens to the connections of a server. -/
inductive ConnectionEvent where
  | arrival
  /-- A task ends: it returns, or breaks. -/
  | ending (broken : Bool)
deriving DecidableEq, Repr

namespace Traffic

/-- A server that has no connections. -/
def idle : Traffic :=
  ⟨⟨0⟩, 0⟩

/-- A connection for which there is no slot gets no task. -/
def step (t : Traffic) : ConnectionEvent → Traffic
  | .arrival => match t.slots.take? with
    | some slots => ⟨slots, t.alive + 1⟩
    | none => t
  | .ending broken =>
    if t.alive = 0 then t else ⟨t.slots.release broken, t.alive - 1⟩

/-- What events lead to, one after another. -/
def run (t : Traffic) (events : List ConnectionEvent) : Traffic :=
  events.foldl step t

end Traffic

end ChassisCooling.Server
