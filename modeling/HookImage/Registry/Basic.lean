/-
# The registry

The ledger of active interceptions.  Records are kept in the order of their
registration.  A snapshot is built when one is asked for, and kept until a change of the
records; as long as nothing changes, every request is answered with the same snapshot.
A registry whose lock is lost answers nothing any more.
-/

import HookImage.Diagnostics
import HookImage.Host.Owner
import HookImage.Registry.Snapshot

namespace HookImage

/-- A snapshot and which one of the snapshots that were built it is. -/
structure StampedSnapshot where
  stamp : Nat
  snapshot : Snapshot

/-- The ledger of active interceptions. -/
structure Registry where
  policy : OwnerPolicy := {}
  /-- In registration order. -/
  records : List Interception := []
  /-- The snapshot of the present records, if it was asked for. -/
  index : Option StampedSnapshot := none
  /-- How many snapshots were built so far. -/
  built : Nat := 0
  /-- Whether a thread died while it held the lock. -/
  poisoned : Bool := false

namespace Registry

/-- What is noted when a handle is registered that is active already. -/
def duplicate (r : Interception) : Diagnostic :=
  { severity := .warning
    topic := .registry
    message := s!"{r.handle.text} is registered more than once"
    method := r.target
    handle := some r.handle }

/-- What is noted when nobody is found who installed an interception. -/
def ownerless (event : InstallEvent) (frames : List CallFrame) : Diagnostic :=
  { severity := .warning
    topic := .owner
    message :=
      s!"failed to find owner module for {event.kind.tag.label} over {frames.length} frames"
    method := event.target
    handle := some event.handle }

/-- What is noted when an installation could not be recorded. -/
def unrecorded (event : InstallEvent) (e : Error) : Diagnostic :=
  { severity := .error
    topic := .registry
    message := e.message
    handle := some event.handle }

/-- Adds an interception.  A handle that is active already is noted and recorded once
more. -/
def register (reg : Registry) (r : Interception) : Except Error (Registry × List Diagnostic) :=
  if reg.poisoned then .error .lock
  else
    let notes := if reg.records.any (·.handle == r.handle) then [duplicate r] else []
    .ok ({ reg with records := reg.records ++ [r], index := none }, notes)

/-- Removes every interception with a handle, and tells how many there were. -/
def unregister (reg : Registry) (handle : HandleId) : Except Error (Nat × Registry) :=
  if reg.poisoned then .error .lock
  else
    let kept := reg.records.filter (·.handle != handle)
    let removed := reg.records.length - kept.length
    let index := if removed > 0 then none else reg.index
    .ok (removed, { reg with records := kept, index })

/-- The snapshot of the present records. -/
def snapshot (reg : Registry) : Except Error (StampedSnapshot × Registry) :=
  if reg.poisoned then .error .lock
  else
    match reg.index with
    | some s => .ok (s, reg)
    | none =>
      let s : StampedSnapshot := ⟨reg.built, Snapshot.build reg.records⟩
      .ok (s, { reg with index := some s, built := reg.built + 1 })

/-- The present records. -/
def list (reg : Registry) : Except Error (List Interception) :=
  if reg.poisoned then .error .lock else .ok reg.records

/-- Records an installation under the owner that its call stack tells.  The notes are
made whether it can be recorded or not. -/
def install (reg : Registry) (event : InstallEvent) (frames : List CallFrame) :
    Except Error Registry × List Diagnostic :=
  let owner := (reg.policy.owner? frames).map (·.id)
  let notes := if owner.isNone then [ownerless event frames] else []
  match reg.register { event with owner } with
  | .ok (reg, more) => (.ok reg, notes ++ more)
  | .error e => (.error e, notes ++ [unrecorded event e])

/-- Records a removal. -/
def uninstall (reg : Registry) (handle : HandleId) : Except Error Registry :=
  (reg.unregister handle).map (·.2)

end Registry
end HookImage
