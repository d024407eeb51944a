/-!
# The event bus

Which handler takes which events. Handlers are registered by the source and the type of the events,
and of two registered for the same events the later one stays.
-/

namespace EventWorker

/-- The source and the type of an event. -/
abbrev EventKey := String × String

structure Bus (H : Type) where
  entries : List (EventKey × H)
  deriving Inhabited

namespace Bus

variable {H : Type}

def empty : Bus H :=
  ⟨[]⟩

instance : EmptyCollection (Bus H) :=
  ⟨empty⟩

/-- The handler for the events of a key. -/
def handler? (bus : Bus H) (key : EventKey) : Option H :=
  bus.entries.lookup key

def handles (bus : Bus H) (key : EventKey) : Bool :=
  (bus.handler? key).isSome

/-- Registers a handler. -/
def on (bus : Bus H) (key : EventKey) (h : H) : Bus H :=
  ⟨bus.entries.filter (·.1 != key) ++ [(key, h)]⟩

def size (bus : Bus H) : Nat :=
  bus.entries.length

def isEmpty (bus : Bus H) : Bool :=
  bus.entries.isEmpty

end Bus

end EventWorker
